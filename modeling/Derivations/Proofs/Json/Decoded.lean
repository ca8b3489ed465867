import Derivations.Proofs.Json.Decode

/-!
# What decoding can give

What is decoded is known in part whatever it is decoded from: a value is as deep as its tree and
has no repeated keys, an identifier is well formed. Of a record something holds as soon as it
holds of the fields that have a say in it, in an object as in an array.
-/

namespace Derivations

namespace Json

variable {α β : Type} {a : α} {raw : Raw} {v : Json}

/-! ## Depth -/

namespace Raw

theorem eq_of_closed {value : α} {stop : Option Fault} (h : closed value stop = .ok a) :
    a = value := by
  cases stop with
  | none => exact (Except.ok.inj h).symm
  | some fault => nomatch h

mutual

/-- The value that a tree spells is as deep as the tree. -/
theorem depth_of_toJson : ∀ {raw : Raw} {v : Json}, raw.toJson = .ok v → v.depth = raw.depth
  | .null, _, h => by cases h; rfl
  | .bool _, _, h => by cases h; rfl
  | .number (some _), _, h => by cases h; rfl
  | .number none, _, h => nomatch h
  | .string (some _), _, h => by cases h; rfl
  | .string none, _, h => nomatch h
  | .array items stop, _, h => by
    rw [toJson] at h
    obtain ⟨xs, spelled, ended⟩ := Except.bind_eq_ok_iff.1 h
    rw [eq_of_closed ended, depth, Json.depth, depthItems_of_toItems spelled]
  | .object entries stop, _, h => by
    rw [toJson] at h
    obtain ⟨es, spelled, ended⟩ := Except.bind_eq_ok_iff.1 h
    rw [eq_of_closed ended, depth, Json.depth, depthEntries_of_toEntries spelled]
  | .broken _, _, h => nomatch h

theorem depthItems_of_toItems : ∀ {items : List Raw} {xs : List Json}, toItems items = .ok xs →
    Json.depthItems xs = depthItems items
  | [], _, h => by cases h; rfl
  | item :: items, _, h => by
    rw [toItems] at h
    obtain ⟨x, first, h⟩ := Except.bind_eq_ok_iff.1 h
    obtain ⟨xs, rest, h⟩ := Except.bind_eq_ok_iff.1 h
    cases h
    rw [depthItems, Json.depthItems, depth_of_toJson first, depthItems_of_toItems rest]

theorem depthEntries_of_toEntries : ∀ {entries : List (Except Fault String × Raw)}
    {es : List (String × Json)}, toEntries entries = .ok es →
    Json.depthEntries es = depthEntries entries
  | [], _, h => by cases h; rfl
  | (key, item) :: entries, _, h => by
    rw [toEntries] at h
    obtain ⟨k, -, h⟩ := Except.bind_eq_ok_iff.1 h
    obtain ⟨x, first, h⟩ := Except.bind_eq_ok_iff.1 h
    obtain ⟨es, rest, h⟩ := Except.bind_eq_ok_iff.1 h
    cases h
    rw [depthEntries, Json.depthEntries, depth_of_toJson first, depthEntries_of_toEntries rest]

end

end Raw

theorem orFault_eq_ok {x : Except Fault α} : orFault x = .ok a ↔ x = .ok a := by
  cases x <;> simp [orFault]

/-- A value that is decoded as such has lost its repeated keys, and some depth at most. -/
theorem depth_of_value (h : Decoder.value raw = .ok v) :
    v.canonical.depth = v.depth ∧ v.depth ≤ raw.depth := by
  unfold Decoder.value at h
  obtain ⟨w, spelled, rfl⟩ := Except.map_eq_ok_iff.1 (orFault_eq_ok.1 h)
  rw [canonical_collapse, depth_collapse, ← Raw.depth_of_toJson spelled]
  exact ⟨rfl, depth_canonical_le w⟩

/-! ## Well-formed identifiers -/

theorem isWellFormed_of_decode {out : OutId} (h : Decoder.out raw = .ok out) :
    out.IsWellFormed := by
  unfold Decoder.out at h
  obtain ⟨text, -, h⟩ := Except.bind_eq_ok_iff.1 h
  split at h
  · rename_i parsed found
    cases h
    obtain rfl := OutId.text_of_parse? found
    exact found
  · nomatch h

theorem forall_of_mapM {decode : Decoder α} {P : α → Prop}
    (each : ∀ raw a, decode raw = .ok a → P a) {items : List Raw} {as : List α}
    (h : items.mapM decode = .ok as) : ∀ a ∈ as, P a := by
  induction items generalizing as with
  | nil =>
    cases h
    exact List.forall_mem_nil _
  | cons item items ih =>
    rw [List.mapM_cons] at h
    obtain ⟨b, first, h⟩ := Except.bind_eq_ok_iff.1 h
    obtain ⟨bs, rest, h⟩ := Except.bind_eq_ok_iff.1 h
    cases h
    exact List.forall_mem_cons.2 ⟨each item b first, ih rest⟩

theorem Raw.mismatch_ne_ok (raw : Raw) (expected : String) : raw.mismatch expected ≠ .ok a := by
  unfold mismatch
  split <;> nofun

theorem forall_of_list {decode : Decoder α} {P : α → Prop}
    (each : ∀ raw a, decode raw = .ok a → P a) {as : List α}
    (h : Decoder.list decode raw = .ok as) : ∀ a ∈ as, P a := by
  unfold Decoder.list at h
  split at h
  · obtain ⟨bs, decoded, ended⟩ := Except.bind_eq_ok_iff.1 h
    obtain rfl := Raw.eq_of_closed (orFault_eq_ok.1 ended)
    exact forall_of_mapM each decoded
  · exact absurd h (Raw.mismatch_ne_ok _ _)

/-! ## Records -/

namespace Record

/-- Whatever is decoded as the record satisfies this. -/
structure Gives (r : Record α) (P : α → Prop) : Prop where
  ofEntries {find : String → Option Raw} {a : α} (h : r.ofEntries find = .ok a) : P a
  ofItems {missing : Nat → ReadError} {position : Nat} {items rest : List Raw} {a : α}
    (h : r.ofItems missing position items = .ok (a, rest)) : P a

theorem ofEntries_seq_eq_ok {f : Record (α → β)} {x : Record α} {find : String → Option Raw}
    {b : β} : (f.seq x).ofEntries find = .ok b ↔
      ∃ g a, f.ofEntries find = .ok g ∧ x.ofEntries find = .ok a ∧ g a = b := by
  unfold seq
  constructor
  · intro h
    obtain ⟨g, first, h⟩ := Except.bind_eq_ok_iff.1 h
    obtain ⟨a, second, h⟩ := Except.bind_eq_ok_iff.1 h
    cases h
    exact ⟨g, a, first, second, rfl⟩
  · rintro ⟨g, a, first, second, rfl⟩
    simp [first, second, bind, Except.bind, Pure.pure, Except.pure]

theorem ofItems_seq_eq_ok {f : Record (α → β)} {x : Record α} {missing : Nat → ReadError}
    {position : Nat} {items rest : List Raw} {b : β} :
    (f.seq x).ofItems missing position items = .ok (b, rest) ↔
      ∃ g a between, f.ofItems missing position items = .ok (g, between) ∧
        x.ofItems missing (position + f.fields.length) between = .ok (a, rest) ∧ g a = b := by
  unfold seq
  constructor
  · intro h
    obtain ⟨⟨g, between⟩, first, h⟩ := Except.bind_eq_ok_iff.1 h
    obtain ⟨⟨a, last⟩, second, h⟩ := Except.bind_eq_ok_iff.1 h
    cases h
    exact ⟨g, a, between, first, second, rfl⟩
  · rintro ⟨g, a, between, first, second, rfl⟩
    simp [first, second, bind, Except.bind, Pure.pure, Except.pure]

variable {P : β → Prop} {Q : α → Prop}

/-- What holds whatever is decoded. -/
theorem Gives.always {r : Record β} (h : ∀ b, P b) : r.Gives P := ⟨fun _ => h _, fun _ => h _⟩

theorem gives_pure {b : β} (h : P b) : (pure b).Gives P where
  ofEntries decoded := by
    cases decoded
    exact h
  ofItems decoded := by
    cases decoded
    exact h

/-- What holds of the last field may be needed of it. -/
theorem Gives.with {f : Record (α → β)} {x : Record α}
    (h : f.Gives fun g => ∀ a, Q a → P (g a)) (hx : x.Gives Q) : (f.seq x).Gives P where
  ofEntries decoded := by
    obtain ⟨g, a, first, second, rfl⟩ := ofEntries_seq_eq_ok.1 decoded
    exact h.ofEntries first a (hx.ofEntries second)
  ofItems decoded := by
    obtain ⟨g, a, between, first, second, rfl⟩ := ofItems_seq_eq_ok.1 decoded
    exact h.ofItems first a (hx.ofItems second)

theorem Gives.mono {r : Record β} {P' : β → Prop} (h : r.Gives P) (weaker : ∀ b, P b → P' b) :
    r.Gives P' where
  ofEntries decoded := weaker _ (h.ofEntries decoded)
  ofItems decoded := weaker _ (h.ofItems decoded)

/-- The last field makes no difference. -/
theorem Gives.seq {f : Record (α → β)} (h : f.Gives fun g => ∀ a, P (g a)) (x : Record α) :
    (f.seq x).Gives P :=
  (h.mono fun _ holds a (_ : True) => holds a).with (.always fun _ => trivial)

theorem Gives.map {x : Record α} (h : x.Gives Q) {f : α → β} (holds : ∀ a, Q a → P (f a)) :
    (x.map f).Gives P := (gives_pure holds).with h

/-- What holds of all that a record is mapped to. -/
theorem gives_map {x : Record α} {f : α → β} (h : ∀ a, P (f a)) : (x.map f).Gives P :=
  Gives.map (Gives.always fun _ => trivial) fun a _ => h a

theorem ofEntries_required {name : String} {decode : Decoder α} {find : String → Option Raw}
    (h : (required name decode).ofEntries find = .ok a) :
    ∃ raw, find name = some raw ∧ decode raw = .ok a := by
  unfold required single at h
  dsimp only at h
  split at h
  · rename_i raw found
    exact ⟨raw, found, h⟩
  · nomatch h

theorem ofItems_required {name : String} {decode : Decoder α} {missing : Nat → ReadError}
    {position : Nat} {items rest : List Raw}
    (h : (required name decode).ofItems missing position items = .ok (a, rest)) :
    ∃ raw, items = raw :: rest ∧ decode raw = .ok a := by
  cases items with
  | nil => nomatch h
  | cons raw items =>
    obtain ⟨b, decoded, same⟩ := Except.map_eq_ok_iff.1 h
    cases same
    exact ⟨raw, rfl, decoded⟩

theorem gives_single {name : String} {decode : Decoder α} {absent : Except ReadError α}
    {ended : ReadError → Except ReadError α} (h : ∀ raw a, decode raw = .ok a → Q a)
    (absent? : ∀ a, absent = .ok a → Q a) (ended? : ∀ e a, ended e = .ok a → Q a) :
    (single name decode absent ended).Gives Q where
  ofEntries decoded := by
    unfold single at decoded
    dsimp only at decoded
    split at decoded
    · exact h _ _ decoded
    · exact absent? _ decoded
  ofItems {missing position items rest a} decoded := by
    unfold single at decoded
    dsimp only at decoded
    cases items with
    | nil =>
      obtain ⟨b, made, same⟩ := Except.map_eq_ok_iff.1 decoded
      cases same
      exact ended? _ _ made
    | cons raw items =>
      obtain ⟨b, made, same⟩ := Except.map_eq_ok_iff.1 decoded
      cases same
      exact h raw _ made

theorem gives_required {name : String} {decode : Decoder α}
    (h : ∀ raw a, decode raw = .ok a → Q a) : (required name decode).Gives Q := by
  refine gives_single h ?_ ?_
  · rintro a ⟨⟩
  · rintro e a ⟨⟩

theorem gives_defaulted {name : String} {decode : Decoder α} {value : α}
    (h : ∀ raw a, decode raw = .ok a → Q a) (default : Q value) :
    (defaulted name decode value).Gives Q := by
  refine gives_single h ?_ ?_
  · rintro a ⟨⟩
    exact default
  · rintro e a ⟨⟩
    exact default

theorem mem_of_findEntry {entries : List (Except Fault String × Raw)} {name : String}
    (h : findEntry entries name = some raw) : (.ok name, raw) ∈ entries := by
  induction entries with
  | nil => nomatch h
  | cons e entries ih =>
    obtain ⟨key, value⟩ := e
    cases key with
    | error fault => exact List.mem_cons_of_mem _ (ih h)
    | ok key =>
      unfold findEntry at h
      split at h
      · rename_i same
        cases h
        rw [same]
        exact List.mem_cons_self
      · exact List.mem_cons_of_mem _ (ih h)

/-! ## Objects and arrays -/

variable {r : Record α} {entries : List (Except Fault String × Raw)} {items : List Raw}
  {stop : Option Fault} {name : String}

theorem decodeObject_eq_ok : r.decodeObject entries stop = .ok a ↔
    checkEntries r.fields [] entries = .ok () ∧ stop = none ∧
      r.ofEntries (findEntry entries) = .ok a := by
  unfold decodeObject
  constructor
  · intro h
    obtain ⟨_, checked, h⟩ := Except.bind_eq_ok_iff.1 h
    obtain ⟨_, ended, h⟩ := Except.bind_eq_ok_iff.1 h
    cases stop with
    | none => exact ⟨checked, rfl, h⟩
    | some fault => nomatch ended
  · rintro ⟨checked, rfl, made⟩
    rw [checked]
    exact made

theorem decodeWhole_eq_ok : r.decodeWhole name items = .ok a ↔
    r.decodeArray name items none = .ok (a, []) := by
  unfold decodeWhole
  constructor
  · intro h
    obtain ⟨⟨b, rest⟩, made, h⟩ := Except.bind_eq_ok_iff.1 h
    dsimp only at h
    split at h
    · rename_i done
      rw [List.isEmpty_iff] at done
      cases h
      rw [made, done]
    · nomatch h
  · intro made
    rw [made]
    rfl

end Record

end Json

end Derivations

import Derivations.Proofs.Json.Canonical
import Derivations.Source.Encode

/-!
# Records written as objects

A record is written as an object with an entry for each field that has a value. Two records with
the same fields, no two of one name, agree exactly if they do field by field, an absent value
agreeing only with an absent one. An encoder is faithful if it lets no two values agree.
-/

namespace Derivations

namespace Json

/-- The fields of a record, each with its value if it has one. -/
abbrev Fields := List (String × Option Json)

/-- The entries of the fields that have a value. -/
def present (fs : Fields) : Entries := fs.flatMap fun f => field? f.1 id f.2

theorem present_cons (name : String) (value : Option Json) (fs : Fields) :
    present ((name, value) :: fs) = field? name id value ++ present fs := List.flatMap_cons

theorem mem_present {fs : Fields} {e : String × Json} :
    e ∈ present fs ↔ (e.1, some e.2) ∈ fs := by
  induction fs with
  | nil => exact iff_of_false List.not_mem_nil List.not_mem_nil
  | cons f fs ih =>
    obtain ⟨name, value⟩ := f
    rw [present_cons, List.mem_append, List.mem_cons, ih]
    cases value <;> simp [field?, Prod.ext_iff]

/-- An entry stands for a field. -/
theorem nodup_present {fs : Fields} (distinct : (fs.map Prod.fst).Nodup) :
    ((present fs).map Prod.fst).Nodup := by
  induction fs with
  | nil => exact List.nodup_nil
  | cons f fs ih =>
    obtain ⟨name, value⟩ := f
    rw [List.map_cons, List.nodup_cons] at distinct
    rw [present_cons]
    cases value with
    | none => exact ih distinct.2
    | some v =>
      refine List.nodup_cons.2 ⟨fun mem => distinct.1 ?_, ih distinct.2⟩
      obtain ⟨e, there, same⟩ := List.mem_map.1 mem
      exact List.mem_map.2 ⟨_, mem_present.1 there, same⟩

@[simp] theorem field?_some {α : Type} (name : String) (encode : α → Json) (value : α) :
    field? name encode (some value) = [(name, encode value)] := rfl

@[simp] theorem field?_map {α : Type} (name : String) (encode : α → Json) (value : Option α) :
    field? name id (value.map encode) = field? name encode value := by
  cases value <;> rfl

theorem lastValue?_field? (key name : String) (value : Option Json) :
    lastValue? key (field? name id value) = if key = name then value else none := by
  cases value with
  | none => simp [field?, lastValue?]
  | some v => simp [lastValue?]

theorem lastValue?_present {fs : Fields} (distinct : (fs.map Prod.fst).Nodup) (key : String) :
    lastValue? key (present fs) = (fs.lookup key).join := by
  induction fs with
  | nil => rfl
  | cons f fs ih =>
    obtain ⟨name, value⟩ := f
    rw [List.map_cons, List.nodup_cons] at distinct
    rw [present_cons, lastValue?_append, ih distinct.2, lastValue?_field?, lookup_cons_ite]
    by_cases here : key = name
    · rw [if_pos here, if_pos here, ← lastValue?_eq_lookup distinct.2,
        lastValue?_eq_none (here ▸ distinct.1)]
      rfl
    · rw [if_neg here, if_neg here, Option.or_none]

/-- Records with the same fields agree field by field. -/
theorem agree_present {fs gs : Fields} (names : fs.map Prod.fst = gs.map Prod.fst)
    (distinct : (fs.map Prod.fst).Nodup) :
    Agree (.object (present fs)) (.object (present gs)) ↔
      List.Forall₂ (Option.Rel Agree) (fs.map Prod.snd) (gs.map Prod.snd) := by
  rw [agree_object]
  simp only [lastValue?_present distinct, lastValue?_present (names ▸ distinct)]
  induction fs generalizing gs with
  | nil =>
    obtain rfl : gs = [] := List.map_eq_nil_iff.1 names.symm
    simp [Option.rel_refl agree_refl]
  | cons f fs ih =>
    cases gs with
    | nil => nomatch names
    | cons g gs =>
      obtain ⟨name, v⟩ := f
      obtain ⟨other, w⟩ := g
      obtain ⟨same, tails⟩ := List.cons.inj names
      obtain rfl : name = other := same
      rw [List.map_cons, List.nodup_cons] at distinct
      rw [List.map_cons, List.map_cons, List.forall₂_cons, ← ih tails distinct.2]
      simp only [lookup_cons_ite]
      constructor
      · intro h
        refine ⟨by simpa using h name, fun key => ?_⟩
        by_cases here : key = name
        · -- a name that is taken stands for nothing further on
          rw [← lastValue?_eq_lookup distinct.2, ← lastValue?_eq_lookup (tails ▸ distinct.2),
            lastValue?_eq_none (here ▸ distinct.1),
            lastValue?_eq_none (tails ▸ here ▸ distinct.1)]
          exact .none
        · simpa only [if_neg here] using h key
      · rintro ⟨head, tail⟩ key
        by_cases here : key = name
        · rw [if_pos here, if_pos here]
          exact head
        · rw [if_neg here, if_neg here]
          exact tail key

/-! ## Faithful encoders -/

/-- No two values are written in a way that agrees. -/
def Faithful {α : Type} (encode : α → Json) : Prop :=
  ∀ a b, Agree (encode a) (encode b) ↔ a = b

section Faithful

variable {α : Type} {encode : α → Json}

theorem Faithful.some (h : Faithful encode) {a b : α} :
    Option.Rel Agree (some (encode a)) (some (encode b)) ↔ a = b := by
  rw [Option.rel_some_some, h]

theorem Faithful.map (h : Faithful encode) {o p : Option α} :
    Option.Rel Agree (o.map encode) (p.map encode) ↔ o = p := by
  cases o <;> cases p <;> simp [h _ _]

theorem Faithful.list (h : Faithful encode) :
    Faithful fun xs : List α => .array (xs.map encode) := by
  intro xs ys
  rw [agree_array, List.forall₂_map_left_iff, List.forall₂_map_right_iff,
    ← List.forall₂_eq_eq_eq]
  simp only [h _ _]

theorem faithful_string : Faithful .string := fun _ _ => agree_string

theorem faithful_bool : Faithful .bool := fun _ _ => agree_bool

theorem faithful_ofStrings : Faithful ofStrings := faithful_string.list

theorem faithful_ofOut : Faithful ofOut := by
  intro a b
  rw [ofOut, ofOut, agree_string, OutId.mk.injEq]

theorem faithful_ofOuts : Faithful ofOuts := faithful_ofOut.list

theorem faithful_ofSet : Faithful ofSet := by
  intro s t
  rw [ofSet, ofSet, faithful_ofStrings]
  constructor
  · intro h
    cases s with
    | mk es he =>
      cases t with
      | mk fs hf =>
        rw [StringMap.mk.injEq]
        exact List.map_injective_iff.2 (fun a b same => Prod.ext same rfl) h
  · rintro rfl
    rfl

theorem faithful_ofMap : Faithful ofMap := by
  intro m n
  rw [ofMap, ofMap, agree_object]
  constructor
  · intro h
    refine StringMap.ext_lookup fun key => ?_
    have values := h key
    rw [lastValue?_map, lastValue?_map, faithful_string.map, StringMap.lastValue?_entries,
      StringMap.lastValue?_entries] at values
    exact values
  · rintro rfl
    exact fun key => Option.rel_refl agree_refl _

end Faithful

end Json

end Derivations

import Derivations.Proofs.Json.Decoded
import Derivations.Proofs.Json.Equality

/-!
# What a tree means

The order of entries has no meaning, nor has an entry that a later one of the same key overrides.
So a tree means each value without repeated keys that agrees with the one it spells. What the tree
means is known part by part: the items of an array in their order, the last values of the keys of
an object.
-/

namespace Derivations

namespace Json

/-- Two values agree exactly if they have one canonical form. -/
theorem agree_iff {v w : Json} : Agree v w ↔ v.canonical = w.canonical := by
  rw [← canonicalText_eq_iff, canonicalText, canonicalText, canonicalValue_eq, canonicalValue_eq,
    compact_inj]

theorem agree_collapse (v : Json) : Agree v v.collapse := by
  rw [agree_iff, canonical_collapse]

/-! ## Values without repeated keys -/

/-- No object of the value repeats a key. -/
def IsCollapsed (v : Json) : Prop := v.collapse = v

theorem isCollapsed_array {xs : List Json} :
    (Json.array xs).IsCollapsed ↔ ∀ x ∈ xs, x.IsCollapsed := by
  rw [IsCollapsed, collapse, collapseItems_eq_map, array.injEq]
  constructor
  · intro h x mem
    exact List.map_inj_left.1 (h.trans (List.map_id' xs).symm) x mem
  · intro h
    exact (List.map_congr_left h).trans (List.map_id' xs)

theorem isCollapsed_object {es : List (String × Json)} :
    (Json.object es).IsCollapsed ↔ (es.map Prod.fst).Nodup ∧ ∀ e ∈ es, e.2.IsCollapsed := by
  rw [IsCollapsed, collapse, collapseEntries_eq_map, object.injEq]
  have keys : (es.map fun e => (e.1, e.2.collapse)).map Prod.fst = es.map Prod.fst := by
    rw [List.map_map]
    rfl
  constructor
  · intro h
    have distinct : (es.map Prod.fst).Nodup := by
      rw [← h]
      exact nodup_keys_lastValues _
    rw [lastValues_of_nodup (keys ▸ distinct)] at h
    refine ⟨distinct, fun e mem => ?_⟩
    have same := List.map_inj_left.1 (h.trans (List.map_id' es).symm) e mem
    exact congrArg Prod.snd same
  · rintro ⟨distinct, each⟩
    rw [lastValues_of_nodup (keys ▸ distinct)]
    have same : ∀ e ∈ es, (e.1, e.2.collapse) = e := fun e mem => Prod.ext rfl (each e mem)
    rw [List.map_congr_left same, List.map_id']

theorem isCollapsed_collapse (v : Json) : v.collapse.IsCollapsed := by
  induction v using induct with
  | null => rfl
  | bool b => rfl
  | number n => rfl
  | string s => rfl
  | array xs ih =>
    rw [collapse, collapseItems_eq_map]
    exact isCollapsed_array.2 (List.forall_mem_map.2 ih)
  | object es ih =>
    rw [collapse, collapseEntries_eq_map]
    refine isCollapsed_object.2 ⟨nodup_keys_lastValues _, fun e mem => ?_⟩
    have kept := lastValue?_of_mem_lastValues mem
    rw [lastValue?_map] at kept
    obtain ⟨x, last, collapsed⟩ := Option.map_eq_some_iff.1 kept
    rw [← collapsed]
    exact ih _ (mem_of_lastValue? last)

theorem IsCollapsed.depth_eq {v : Json} (h : v.IsCollapsed) : v.depth = v.canonical.depth := by
  rw [← depth_collapse, h]

theorem isCollapsed_of_value {raw : Raw} {v : Json} (h : Decoder.value raw = .ok v) :
    v.IsCollapsed := by
  obtain ⟨u, -, rfl⟩ := Except.map_eq_ok_iff.1 (orFault_eq_ok.1 h)
  exact isCollapsed_collapse u

/-- The other value is the first one with the keys of its objects sorted, at every depth. -/
inductive SortsTo : Json → Json → Prop
  | null : SortsTo .null .null
  | bool (b : Bool) : SortsTo (.bool b) (.bool b)
  | number (n : Number) : SortsTo (.number n) (.number n)
  | string (s : String) : SortsTo (.string s) (.string s)
  | array {xs ys : List Json} (items : List.Forall₂ SortsTo xs ys) :
    SortsTo (.array xs) (.array ys)
  | object {es fs sorted : List (String × Json)} (keys : es.map Prod.fst = fs.map Prod.fst)
    (values : List.Forall₂ SortsTo (es.map Prod.snd) (fs.map Prod.snd)) (same : sorted.Perm fs)
    (increasing : Increasing sorted) : SortsTo (.object es) (.object sorted)

/-- Where no key is repeated, the canonical form only sorts. -/
theorem IsCollapsed.sortsTo {v : Json} (h : v.IsCollapsed) : v.SortsTo v.canonical := by
  induction v using induct with
  | null => exact .null
  | bool b => exact .bool b
  | number n => exact .number n
  | string s => exact .string s
  | array xs ih =>
    rw [canonical_array]
    have collapsed := isCollapsed_array.1 h
    refine .array (List.forall₂_map_right_iff.2 (List.forall₂_same.2 fun x mem => ?_))
    exact ih x mem (collapsed x mem)
  | object es ih =>
    rw [canonical_object]
    obtain ⟨distinct, collapsed⟩ := isCollapsed_object.1 h
    have keys : es.map Prod.fst = (es.map fun e => (e.1, e.2.canonical)).map Prod.fst := by
      rw [List.map_map]
      rfl
    refine .object keys ?_ (StringMap.perm_ofList (keys ▸ distinct)) (StringMap.increasing _)
    rw [List.map_map]
    refine List.forall₂_map_left_iff.2 (List.forall₂_map_right_iff.2 (List.forall₂_same.2 ?_))
    exact fun e mem => ih e mem (collapsed e mem)

/-! ## Trees -/

namespace Raw

/-- The value has no repeated keys and agrees with the one that the tree spells. -/
structure Means (raw : Raw) (w : Json) : Prop where
  agree : ∃ v, raw.toJson = .ok v ∧ Agree v w
  collapsed : w.IsCollapsed

/-- The entries of an object whose keys are all well formed. -/
def keyed (es : List (String × Raw)) : List (Except Fault String × Raw) :=
  es.map fun e => (.ok e.1, e.2)

variable {raw : Raw} {v w : Json} {items : List Raw} {stop : Option Fault}
  {entries : List (Except Fault String × Raw)}

theorem keyed_inj {es fs : List (String × Raw)} : keyed es = keyed fs ↔ es = fs := by
  refine List.map_inj_right fun e f same => ?_
  obtain ⟨key, value⟩ := Prod.mk.inj same
  exact Prod.ext (Except.ok.inj key) value

theorem mem_keyed {es : List (String × Raw)} {e : String × Raw} (h : e ∈ es) :
    (.ok e.1, e.2) ∈ keyed es := List.mem_map_of_mem h

theorem means_collapse (h : raw.toJson = .ok v) : raw.Means v.collapse :=
  ⟨⟨v, h, agree_collapse v⟩, isCollapsed_collapse v⟩

theorem means_ofJson (agree : Agree v w) (collapsed : w.IsCollapsed) : (ofJson v).Means w :=
  ⟨⟨v, toJson_ofJson v, agree⟩, collapsed⟩

/-- The value is no deeper than the tree. -/
theorem Means.depth_le (h : raw.Means w) : w.depth ≤ raw.depth := by
  obtain ⟨v, spelled, agree⟩ := h.agree
  rw [h.collapsed.depth_eq, ← agree_iff.1 agree, ← depth_of_toJson spelled]
  exact depth_canonical_le v

theorem Means.null (h : Raw.null.Means w) : w = .null := by
  obtain ⟨v, spelled, agree⟩ := h.agree
  cases spelled
  cases w with
  | null => rfl
  | _ => simp [Agree, canonical, Alike] at agree

theorem Means.bool {b : Bool} (h : (Raw.bool b).Means w) : w = .bool b := by
  obtain ⟨v, spelled, agree⟩ := h.agree
  cases spelled
  cases w with
  | bool c => rw [agree_bool.1 agree]
  | _ => simp [Agree, canonical, Alike] at agree

theorem Means.string {s : String} (h : (Raw.string (some s)).Means w) : w = .string s := by
  obtain ⟨v, spelled, agree⟩ := h.agree
  cases spelled
  cases w with
  | string t => rw [agree_string.1 agree]
  | _ => simp [Agree, canonical, Alike] at agree

/-- Nothing but null means null. -/
theorem Means.eq_null (h : raw.Means .null) : raw = .null := by
  obtain ⟨v, spelled, agree⟩ := h.agree
  cases v with
  | null =>
    cases raw with
    | null => rfl
    | array items stop =>
      rw [toJson] at spelled
      obtain ⟨xs, -, ended⟩ := Except.bind_eq_ok_iff.1 spelled
      nomatch eq_of_closed ended
    | object entries stop =>
      rw [toJson] at spelled
      obtain ⟨es, -, ended⟩ := Except.bind_eq_ok_iff.1 spelled
      nomatch eq_of_closed ended
    | number value => cases value <;> nomatch spelled
    | string value => cases value <;> nomatch spelled
    | _ => nomatch spelled
  | _ => simp [Agree, canonical, Alike] at agree

/-! ## Arrays and objects -/

theorem forall₂_of_toItems {xs : List Json} (h : toItems items = .ok xs) :
    List.Forall₂ (fun item x => item.toJson = .ok x) items xs := by
  induction items generalizing xs with
  | nil =>
    cases h
    exact .nil
  | cons item items ih =>
    rw [toItems] at h
    obtain ⟨x, first, h⟩ := Except.bind_eq_ok_iff.1 h
    obtain ⟨xs, rest, h⟩ := Except.bind_eq_ok_iff.1 h
    cases h
    exact .cons first (ih rest)

theorem forall₂_of_toEntries {es : List (String × Json)} (h : toEntries entries = .ok es) :
    ∃ named, entries = keyed named ∧
      List.Forall₂ (fun e f => e.1 = f.1 ∧ e.2.toJson = .ok f.2) named es := by
  induction entries generalizing es with
  | nil =>
    cases h
    exact ⟨[], rfl, .nil⟩
  | cons entry entries ih =>
    obtain ⟨key, item⟩ := entry
    rw [toEntries] at h
    obtain ⟨k, named, h⟩ := Except.bind_eq_ok_iff.1 h
    obtain ⟨x, first, h⟩ := Except.bind_eq_ok_iff.1 h
    obtain ⟨es, rest, h⟩ := Except.bind_eq_ok_iff.1 h
    cases h
    cases named
    obtain ⟨others, rfl, all⟩ := ih rest
    exact ⟨(k, item) :: others, rfl, .cons ⟨rfl, first⟩ all⟩

theorem forall₂_means {xs ws : List Json}
    (spelled : List.Forall₂ (fun item x => item.toJson = .ok x) items xs)
    (agrees : List.Forall₂ Agree xs ws) (collapsed : ∀ w ∈ ws, w.IsCollapsed) :
    List.Forall₂ Means items ws := by
  induction spelled generalizing ws with
  | nil =>
    cases agrees
    exact .nil
  | cons here _ ih =>
    cases agrees with
    | cons same rest =>
      rw [List.forall_mem_cons] at collapsed
      exact .cons ⟨⟨_, here, same⟩, collapsed.1⟩ (ih rest collapsed.2)

/-- An array means the values that its items mean. -/
theorem Means.array (h : (Raw.array items stop).Means w) :
    ∃ ws, w = .array ws ∧ List.Forall₂ Means items ws := by
  obtain ⟨v, spelled, agree⟩ := h.agree
  rw [toJson] at spelled
  obtain ⟨xs, each, ended⟩ := Except.bind_eq_ok_iff.1 spelled
  rw [eq_of_closed ended] at agree
  cases w with
  | array ws =>
    exact ⟨ws, rfl, forall₂_means (forall₂_of_toItems each) (agree_array.1 agree)
      (isCollapsed_array.1 h.collapsed)⟩
  | _ => simp [Agree, canonical, Alike] at agree

/-- An object means what the last value of each key means. -/
theorem Means.object (h : (Raw.object entries stop).Means w) :
    ∃ named fs, entries = keyed named ∧ w = .object fs ∧ (fs.map Prod.fst).Nodup ∧
      ∀ key, Option.Rel Means (lastValue? key named) (fs.lookup key) := by
  obtain ⟨v, spelled, agree⟩ := h.agree
  rw [toJson] at spelled
  obtain ⟨es, each, ended⟩ := Except.bind_eq_ok_iff.1 spelled
  rw [eq_of_closed ended] at agree
  obtain ⟨named, keys, pairs⟩ := forall₂_of_toEntries each
  cases w with
  | object fs =>
    obtain ⟨distinct, collapsed⟩ := isCollapsed_object.1 h.collapsed
    refine ⟨named, fs, keys, rfl, distinct, fun key => ?_⟩
    have agrees := agree_object.1 agree key
    rw [lastValue?_eq_lookup distinct] at agrees
    have spells : Option.Rel (fun item x => item.toJson = .ok x) (lastValue? key named)
        (lastValue? key es) := rel_lastValue? pairs key
    -- through the value that is spelled, if there is one
    cases there : lastValue? key es with
    | none =>
      rw [there, Option.rel_none_right] at spells
      rw [there, Option.rel_none_left] at agrees
      rw [spells, agrees]
      exact .none
    | some x =>
      rw [there] at spells agrees
      obtain ⟨item, last, spelled⟩ := Option.rel_some_right.1 spells
      obtain ⟨w, here, agree⟩ := Option.rel_some_left.1 agrees
      rw [last, here]
      exact .some ⟨⟨x, spelled, agree⟩, collapsed _ (mem_of_lookup here)⟩
  | _ => simp [Agree, canonical, Alike] at agree

end Raw

end Json

end Derivations

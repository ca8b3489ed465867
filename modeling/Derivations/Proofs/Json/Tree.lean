import Derivations.Json.Raw
import Derivations.Proofs.Json.Canonical
import Derivations.Proofs.Result

/-!
# Trees of values

The tree of a value spells the value and is as deep as it is. A value in canonical form has no
repeated keys left, and is no deeper than it was before.
-/

namespace Derivations

theorem StringMap.mem_ofList {α : Type} {e : String × α} {es : List (String × α)}
    (h : e ∈ (ofList es).entries) : e ∈ es := by
  suffices on_top : ∀ m : StringMap α,
      e ∈ (es.foldl (fun m e => m.insert e.1 e.2) m).entries → e ∈ es ∨ e ∈ m.entries by
    simpa [empty] using on_top empty h
  clear h
  induction es with
  | nil => exact fun m mem => .inr mem
  | cons f es ih =>
    intro m mem
    rcases ih _ mem with behind | before
    · exact .inl (List.mem_cons_of_mem _ behind)
    · rcases mem_put before with rfl | old
      · exact .inl List.mem_cons_self
      · exact .inr old

namespace Json

/-! ## Values without repeated keys -/

theorem setEntry_of_notMem {α : Type} {key : String} {value : α} {es : List (String × α)}
    (h : key ∉ es.map Prod.fst) : setEntry key value es = es ++ [(key, value)] := by
  induction es with
  | nil => rfl
  | cons e es ih =>
    rw [List.map_cons, List.mem_cons, not_or] at h
    rw [setEntry, if_neg (Ne.symm h.1), ih h.2, List.cons_append]

theorem lastValues_of_nodup {α : Type} {es : List (String × α)} (h : (es.map Prod.fst).Nodup) :
    lastValues es = es := by
  suffices on_top : ∀ kept : List (String × α), ((kept ++ es).map Prod.fst).Nodup →
      es.foldl (fun kept e => setEntry e.1 e.2 kept) kept = kept ++ es from on_top [] h
  clear h
  induction es with
  | nil => exact fun kept _ => (List.append_nil kept).symm
  | cons e es ih =>
    intro kept distinct
    have new : e.1 ∉ kept.map Prod.fst := by
      rw [List.map_append, List.map_cons, List.nodup_append] at distinct
      exact fun mem => distinct.2.2 _ mem _ List.mem_cons_self rfl
    rw [List.foldl_cons, setEntry_of_notMem new, ih, List.append_assoc, List.singleton_append]
    rwa [List.append_assoc, List.singleton_append]

/-- What is in an object in canonical form is in canonical form. -/
theorem exists_of_mem_canonical {es : List (String × Json)} {e : String × Json}
    (h : e ∈ (StringMap.ofList (es.map fun e => (e.1, e.2.canonical))).entries) :
    ∃ f ∈ es, e = (f.1, f.2.canonical) := by
  obtain ⟨f, mem, rfl⟩ := List.mem_map.1 (StringMap.mem_ofList h)
  exact ⟨f, mem, rfl⟩

theorem collapse_canonical (value : Json) : value.canonical.collapse = value.canonical := by
  induction value using induct with
  | null => rfl
  | bool b => rfl
  | number n => rfl
  | string s => rfl
  | array xs ih =>
    rw [canonical_array, collapse, collapseItems_eq_map, List.map_map]
    exact congrArg Json.array (List.map_congr_left ih)
  | object es ih =>
    rw [canonical_object, collapse, collapseEntries_eq_map]
    have same : ∀ e ∈ (StringMap.ofList (es.map fun e => (e.1, e.2.canonical))).entries,
        (e.1, e.2.collapse) = e := by
      intro e mem
      obtain ⟨f, there, rfl⟩ := exists_of_mem_canonical mem
      rw [ih f there]
    rw [List.map_congr_left same, List.map_id']
    exact congrArg Json.object (lastValues_of_nodup (StringMap.increasing _).nodup_keys)

/-- A value in canonical form is left as it is. -/
theorem canonical_canonical (value : Json) : value.canonical.canonical = value.canonical := by
  induction value using induct with
  | null => rfl
  | bool b => rfl
  | number n => rfl
  | string s => rfl
  | array xs ih =>
    rw [canonical_array, canonical_array, List.map_map]
    exact congrArg Json.array (List.map_congr_left ih)
  | object es ih =>
    rw [canonical_object, canonical_object]
    have same : ∀ e ∈ (StringMap.ofList (es.map fun e => (e.1, e.2.canonical))).entries,
        (e.1, e.2.canonical) = e := by
      intro e mem
      obtain ⟨f, there, rfl⟩ := exists_of_mem_canonical mem
      rw [ih f there]
    rw [List.map_congr_left same, List.map_id', StringMap.ofList_entries]

theorem agree_canonical (value : Json) : Agree value.canonical value := by
  rw [Agree, canonical_canonical]
  exact alike_refl _

/-! ## Depth -/

theorem depthItems_le_iff {xs : List Json} {n : Nat} :
    depthItems xs ≤ n ↔ ∀ x ∈ xs, x.depth ≤ n := by
  induction xs with
  | nil => simp [depthItems]
  | cons x xs ih => rw [depthItems, Nat.max_le, List.forall_mem_cons, ih]

theorem depthEntries_le_iff {es : List (String × Json)} {n : Nat} :
    depthEntries es ≤ n ↔ ∀ e ∈ es, e.2.depth ≤ n := by
  induction es with
  | nil => simp [depthEntries]
  | cons e es ih => rw [depthEntries, Nat.max_le, List.forall_mem_cons, ih]

theorem depth_canonical_le (value : Json) : value.canonical.depth ≤ value.depth := by
  induction value using induct with
  | null => exact Nat.le_refl _
  | bool b => exact Nat.le_refl _
  | number n => exact Nat.le_refl _
  | string s => exact Nat.le_refl _
  | array xs ih =>
    rw [canonical_array, depth, depth, Nat.add_le_add_iff_right, depthItems_le_iff]
    intro y mem
    obtain ⟨x, there, rfl⟩ := List.mem_map.1 mem
    exact Nat.le_trans (ih x there) (depthItems_le_iff.1 (Nat.le_refl _) x there)
  | object es ih =>
    rw [canonical_object, depth, depth, Nat.add_le_add_iff_right, depthEntries_le_iff]
    intro e mem
    obtain ⟨f, there, rfl⟩ := exists_of_mem_canonical mem
    exact Nat.le_trans (ih f there) (depthEntries_le_iff.1 (Nat.le_refl _) f there)

/-- What is left of a value without repeated keys is as deep as its canonical form. -/
theorem depth_collapse (value : Json) : value.collapse.depth = value.canonical.depth := by
  refine Nat.le_antisymm ?_ ?_
  · induction value using induct with
    | null => exact Nat.le_refl _
    | bool b => exact Nat.le_refl _
    | number n => exact Nat.le_refl _
    | string s => exact Nat.le_refl _
    | array xs ih =>
      rw [collapse, collapseItems_eq_map, canonical_array, depth, depth, Nat.add_le_add_iff_right,
        depthItems_le_iff]
      intro y mem
      obtain ⟨x, there, rfl⟩ := List.mem_map.1 mem
      exact Nat.le_trans (ih x there)
        (depthItems_le_iff.1 (Nat.le_refl _) _ (List.mem_map_of_mem there))
    | object es ih =>
      rw [collapse, collapseEntries_eq_map, canonical_object, depth, depth,
        Nat.add_le_add_iff_right, depthEntries_le_iff]
      intro e mem
      -- the canonical form keeps the same entry
      have kept := lastValue?_of_mem_lastValues mem
      rw [lastValue?_map] at kept
      obtain ⟨x, last, collapsed⟩ := Option.map_eq_some_iff.1 kept
      have settled : (e.1, x.canonical) ∈
          (StringMap.ofList (es.map fun e => (e.1, e.2.canonical))).entries := by
        refine mem_of_lookup ?_
        rw [StringMap.lookup_ofList, lastValue?_map, last]
        rfl
      rw [← collapsed]
      exact Nat.le_trans (ih _ (mem_of_lastValue? last))
        (depthEntries_le_iff.1 (Nat.le_refl _) _ settled)
  · have settled := depth_canonical_le value.collapse
    rwa [canonical_collapse] at settled

/-! ## Trees -/

namespace Raw

theorem ofItems_eq_map (xs : List Json) : ofItems xs = xs.map ofJson := by
  induction xs with
  | nil => rfl
  | cons x xs ih => rw [ofItems, ih, List.map_cons]

mutual

theorem toJson_ofJson : ∀ value : Json, (ofJson value).toJson = .ok value
  | .null => rfl
  | .bool _ => rfl
  | .number _ => rfl
  | .string _ => rfl
  | .array xs => by
    rw [ofJson, toJson, toItems_ofItems xs]
    rfl
  | .object es => by
    rw [ofJson, toJson, toEntries_ofEntries es]
    rfl

theorem toItems_ofItems : ∀ xs : List Json, toItems (ofItems xs) = .ok xs
  | [] => rfl
  | x :: xs => by
    rw [ofItems, toItems, toJson_ofJson x, toItems_ofItems xs]
    rfl

theorem toEntries_ofEntries : ∀ es : List (String × Json), toEntries (ofEntries es) = .ok es
  | [] => rfl
  | (k, x) :: es => by
    rw [ofEntries, toEntries, toJson_ofJson x, toEntries_ofEntries es]
    rfl

end

mutual

theorem depth_ofJson : ∀ value : Json, (ofJson value).depth = value.depth
  | .null => rfl
  | .bool _ => rfl
  | .number _ => rfl
  | .string _ => rfl
  | .array xs => by rw [ofJson, depth, Json.depth, depthItems_ofItems xs]
  | .object es => by rw [ofJson, depth, Json.depth, depthEntries_ofEntries es]

theorem depthItems_ofItems : ∀ xs : List Json, depthItems (ofItems xs) = Json.depthItems xs
  | [] => rfl
  | x :: xs => by
    rw [ofItems, depthItems, Json.depthItems, depth_ofJson x, depthItems_ofItems xs]

theorem depthEntries_ofEntries :
    ∀ es : List (String × Json), depthEntries (ofEntries es) = Json.depthEntries es
  | [] => rfl
  | (k, x) :: es => by
    rw [ofEntries, depthEntries, Json.depthEntries, depth_ofJson x, depthEntries_ofEntries es]

end

theorem toJsonWithin_ofJson {value : Json} {room : Nat} (h : value.depth ≤ room) :
    toJsonWithin room (ofJson value) = .ok value := by
  rw [toJsonWithin, depth_ofJson, if_pos h, toJson_ofJson]

end Raw

end Json

end Derivations

import Derivations.Json.Canonical
import Derivations.Proofs.StringMap

/-!
# Values with one canonical form

Two values agree if their canonical forms are one value, numbers being compared by their text. An
object is known by the last values of its keys: objects agree as soon as these do, whatever order
the entries have and whatever they override.
-/

namespace Derivations

namespace Json

/-- Induction on a value through the items of arrays and the values of objects. -/
@[elab_as_elim]
theorem induct {P : Json → Prop} (null : P .null) (bool : ∀ b, P (.bool b))
    (number : ∀ n, P (.number n)) (string : ∀ s, P (.string s))
    (array : ∀ xs, (∀ x ∈ xs, P x) → P (.array xs))
    (object : ∀ es, (∀ e ∈ es, P e.2) → P (.object es)) (value : Json) : P value := by
  refine @Json.rec P (fun xs => ∀ x ∈ xs, P x) (fun es => ∀ e ∈ es, P e.2) (fun e => P e.2)
    null bool number string array object ?_ ?_ ?_ ?_ ?_ value
  · simp
  · exact fun x xs hx hxs => List.forall_mem_cons.2 ⟨hx, hxs⟩
  · simp
  · exact fun e es he hes => List.forall_mem_cons.2 ⟨he, hes⟩
  · exact fun _ _ h => h

/-! ## The canonical form -/

theorem canonicalItems_eq_map (xs : List Json) : canonicalItems xs = xs.map canonical := by
  induction xs with
  | nil => rfl
  | cons x xs ih => rw [canonicalItems, ih, List.map_cons]

theorem canonicalEntries_eq_map (es : List (String × Json)) :
    canonicalEntries es = es.map fun e => (e.1, canonical e.2) := by
  induction es with
  | nil => rfl
  | cons e es ih => rw [canonicalEntries, ih, List.map_cons]

theorem collapseItems_eq_map (xs : List Json) : collapseItems xs = xs.map collapse := by
  induction xs with
  | nil => rfl
  | cons x xs ih => rw [collapseItems, ih, List.map_cons]

theorem collapseEntries_eq_map (es : List (String × Json)) :
    collapseEntries es = es.map fun e => (e.1, collapse e.2) := by
  induction es with
  | nil => rfl
  | cons e es ih => rw [collapseEntries, ih, List.map_cons]

theorem canonical_array (xs : List Json) :
    (Json.array xs).canonical = .array (xs.map canonical) := by
  rw [canonical, canonicalItems_eq_map]

theorem canonical_object (es : List (String × Json)) :
    (Json.object es).canonical =
      .object (StringMap.ofList (es.map fun e => (e.1, canonical e.2))).entries := by
  rw [canonical, canonicalEntries_eq_map]

section Parts

variable {R : Json → Json → Prop}

/-- What compares arrays item by item does so with their canonical forms. -/
theorem rel_canonical_array
    (items : ∀ xs ys, R (.array xs) (.array ys) ↔ List.Forall₂ R xs ys) (xs ys : List Json) :
    R (Json.array xs).canonical (Json.array ys).canonical ↔
      List.Forall₂ (fun x y => R x.canonical y.canonical) xs ys := by
  rw [canonical_array, canonical_array, items, List.forall₂_map_left_iff,
    List.forall₂_map_right_iff]

/-- What compares objects entry by entry compares their canonical forms key by key, each key
standing for the value of its last entry. -/
theorem rel_canonical_object
    (entries : ∀ es fs, R (.object es) (.object fs) ↔
      List.Forall₂ (fun e f => e.1 = f.1 ∧ R e.2 f.2) es fs) (es fs : List (String × Json)) :
    R (Json.object es).canonical (Json.object fs).canonical ↔
      ∀ key, Option.Rel (fun x y => R x.canonical y.canonical)
        (lastValue? key es) (lastValue? key fs) := by
  rw [canonical_object, canonical_object, entries,
    (StringMap.increasing _).forall₂_iff_lookup (StringMap.increasing _)]
  refine forall_congr' fun key => ?_
  rw [StringMap.lookup_ofList, StringMap.lookup_ofList, lastValue?_map, lastValue?_map]
  exact Option.rel_map (R := R) (S := fun x y => R (canonical x) (canonical y))
    (fun _ _ => Iff.rfl) _ _

end Parts

/-- Leaving out the overridden entries first makes no difference to the canonical form. -/
theorem canonical_collapse (value : Json) : value.collapse.canonical = value.canonical := by
  induction value using induct with
  | null => rfl
  | bool b => rfl
  | number n => rfl
  | string s => rfl
  | array xs ih =>
    rw [collapse, collapseItems_eq_map, canonical_array, canonical_array, List.map_map]
    exact congrArg _ (List.map_congr_left ih)
  | object es ih =>
    have both : (es.map fun e => (e.1, collapse e.2)).map (fun e => (e.1, canonical e.2)) =
        es.map fun e => (e.1, canonical e.2) := by
      rw [List.map_map]
      exact List.map_congr_left fun e he => Prod.ext rfl (ih e he)
    rw [collapse, collapseEntries_eq_map, canonical_object, canonical_object]
    refine congrArg (fun m : StringMap Json => Json.object m.entries) (StringMap.ofList_congr ?_)
    intro key
    rw [lastValue?_map, lastValue?_lastValues, ← lastValue?_map, both]

theorem canonicalValue_eq (value : Json) : value.canonicalValue = value.canonical :=
  canonical_collapse value

/-! ## Agreement -/

mutual

/-- One value, with numbers compared by their text. -/
def Alike : Json → Json → Prop
  | .null, .null => True
  | .bool a, .bool b => a = b
  | .number a, .number b => a.chars = b.chars
  | .string a, .string b => a = b
  | .array xs, .array ys => AlikeItems xs ys
  | .object es, .object fs => AlikeEntries es fs
  | _, _ => False

def AlikeItems : List Json → List Json → Prop
  | [], [] => True
  | x :: xs, y :: ys => Alike x y ∧ AlikeItems xs ys
  | _, _ => False

def AlikeEntries : List (String × Json) → List (String × Json) → Prop
  | [], [] => True
  | (k, x) :: es, (l, y) :: fs => k = l ∧ Alike x y ∧ AlikeEntries es fs
  | _, _ => False

end

theorem alike_array {xs ys : List Json} :
    Alike (.array xs) (.array ys) ↔ List.Forall₂ Alike xs ys := by
  rw [Alike]
  induction xs generalizing ys with
  | nil => cases ys <;> simp [AlikeItems]
  | cons x xs ih => cases ys <;> simp [AlikeItems, ih]

theorem alike_object {es fs : List (String × Json)} :
    Alike (.object es) (.object fs) ↔
      List.Forall₂ (fun e f => e.1 = f.1 ∧ Alike e.2 f.2) es fs := by
  rw [Alike]
  induction es generalizing fs with
  | nil => cases fs <;> simp [AlikeEntries]
  | cons e es ih => cases fs <;> simp [AlikeEntries, ih, and_assoc]

/-- One canonical form, with numbers compared by their text. -/
def Agree (v w : Json) : Prop := Alike v.canonical w.canonical

theorem alike_refl (value : Json) : Alike value value := by
  induction value using induct with
  | null => rw [Alike]; trivial
  | bool b => rw [Alike]
  | number n => rw [Alike]
  | string s => rw [Alike]
  | array xs ih => exact alike_array.2 (List.forall₂_same.2 ih)
  | object es ih => exact alike_object.2 (List.forall₂_same.2 fun e he => ⟨rfl, ih e he⟩)

theorem agree_refl (value : Json) : Agree value value := alike_refl _

@[simp] theorem agree_bool {a b : Bool} : Agree (.bool a) (.bool b) ↔ a = b := by
  simp [Agree, canonical, Alike]

@[simp] theorem agree_string {a b : String} : Agree (.string a) (.string b) ↔ a = b := by
  simp [Agree, canonical, Alike]

theorem agree_array {xs ys : List Json} :
    Agree (.array xs) (.array ys) ↔ List.Forall₂ Agree xs ys :=
  rel_canonical_array (fun _ _ => alike_array) xs ys

/-- Objects agree key by key, each key standing for the value of its last entry. -/
theorem agree_object {es fs : List (String × Json)} :
    Agree (.object es) (.object fs) ↔
      ∀ key, Option.Rel Agree (lastValue? key es) (lastValue? key fs) :=
  rel_canonical_object (fun _ _ => alike_object) es fs

end Json

end Derivations

import Derivations.Proofs.Json.Reader
import Derivations.Proofs.Json.Tree

/-!
# Equality of values against equality of texts

Equality of values overlooks one thing that a text shows: the sign of a floating-point zero. Equal
values whose zeros have the same signs are one and the same value. As the text of a value reads
back, two values have one canonical text exactly if their canonical forms are equal and have the
same signs at their zeros.
-/

namespace Derivations

theorem Binary64.sameValue_iff {x y : Binary64} : x.sameValue y ↔
    x.magnitude = y.magnitude ∧ (x.negative = y.negative ∨ y.magnitude = 0) := by
  unfold sameValue
  simp only [Bool.and_eq_true, Bool.or_eq_true, beq_iff_eq]
  exact and_congr_right fun magnitude => by rw [magnitude]

namespace Json

namespace Number

/-- The sign of a floating-point zero. -/
def zeroSign? : Number → Option Bool
  | .integer _ _ => none
  | .float x => if x.magnitude = 0 then some x.negative else none

theorem zeroSign?_float (x : Binary64) :
    (float x).zeroSign? = if x.magnitude = 0 then some x.negative else none := rfl

theorem zeroSign?_isSome_eq {m n : Number} (h : m.same n) :
    m.zeroSign?.isSome = n.zeroSign?.isSome := by
  cases m with
  | integer a _ =>
    cases n with
    | integer b _ => rfl
    | float y => nomatch h
  | float x =>
    cases n with
    | integer b _ => nomatch h
    | float y =>
      obtain ⟨magnitude, -⟩ := Binary64.sameValue_iff.1 h
      rw [zeroSign?_float, zeroSign?_float, magnitude]
      by_cases zero : y.magnitude = 0 <;> simp [zero]

/-- Equal numbers are one number if they have one sign where they are a floating-point zero. -/
theorem eq_iff_same {m n : Number} : m = n ↔ m.same n ∧ m.zeroSign? = n.zeroSign? := by
  constructor
  · rintro rfl
    refine ⟨?_, rfl⟩
    cases m with
    | integer a _ => exact beq_self_eq_true a
    | float x => exact Binary64.sameValue_iff.2 ⟨rfl, .inl rfl⟩
  rintro ⟨equal, signs⟩
  cases m with
  | integer a _ =>
    cases n with
    | integer b _ => simpa [same] using equal
    | float y => cases equal
  | float x =>
    cases n with
    | integer b _ => cases equal
    | float y =>
      obtain ⟨magnitude, sign⟩ := Binary64.sameValue_iff.1 equal
      rw [zeroSign?_float, zeroSign?_float, magnitude] at signs
      have negative : x.negative = y.negative := by
        rcases sign with sign | zero
        · exact sign
        · rw [if_pos zero, if_pos zero, Option.some.injEq] at signs
          exact signs
      obtain ⟨xn, xm, xf⟩ := x
      obtain ⟨yn, ym, yf⟩ := y
      obtain rfl : xn = yn := negative
      obtain rfl : xm = ym := magnitude
      rfl

end Number

/-! ## The signs of zeros -/

mutual

/-- The signs of the floating-point zeros in a value, from left to right. -/
def zeroSigns : Json → List Bool
  | .number n => n.zeroSign?.toList
  | .array items => zeroSignsItems items
  | .object entries => zeroSignsEntries entries
  | _ => []

def zeroSignsItems : List Json → List Bool
  | [] => []
  | x :: xs => zeroSigns x ++ zeroSignsItems xs

def zeroSignsEntries : List (String × Json) → List Bool
  | [] => []
  | (_, x) :: es => zeroSigns x ++ zeroSignsEntries es

end

theorem zeroSigns_array (xs : List Json) : (Json.array xs).zeroSigns = xs.flatMap zeroSigns := by
  rw [zeroSigns]
  induction xs with
  | nil => rfl
  | cons x xs ih => rw [zeroSignsItems, ih, List.flatMap_cons]

theorem zeroSigns_object (es : List (String × Json)) :
    (Json.object es).zeroSigns = es.flatMap fun e => e.2.zeroSigns := by
  rw [zeroSigns]
  induction es with
  | nil => rfl
  | cons e es ih => rw [zeroSignsEntries, ih, List.flatMap_cons]

/-! ## Equality -/

theorem same_array {xs ys : List Json} :
    same (.array xs) (.array ys) ↔ List.Forall₂ (fun x y => same x y) xs ys := by
  rw [same]
  induction xs generalizing ys with
  | nil => cases ys <;> simp [sameItems]
  | cons x xs ih => cases ys <;> simp [sameItems, ih]

theorem same_object {es fs : List (String × Json)} :
    same (.object es) (.object fs) ↔
      List.Forall₂ (fun e f => e.1 = f.1 ∧ same e.2 f.2) es fs := by
  rw [same]
  induction es generalizing fs with
  | nil => cases fs <;> simp [sameEntries]
  | cons e es ih => cases fs <;> simp [sameEntries, ih]

theorem same_refl (value : Json) : same value value := by
  induction value using induct with
  | null => rfl
  | bool b => simp [same]
  | number n => exact (Number.eq_iff_same.1 rfl).1
  | string s => simp [same]
  | array xs ih => exact same_array.2 (List.forall₂_same.2 ih)
  | object es ih => exact same_object.2 (List.forall₂_same.2 fun e mem => ⟨rfl, ih e mem⟩)

/-- Equal lists have as many zeros, if this holds of what is in them. -/
theorem length_flatMap_eq {α : Type} {R : α → α → Prop} {signs : α → List Bool} {xs ys : List α}
    (h : List.Forall₂ R xs ys)
    (each : ∀ x ∈ xs, ∀ y, R x y → (signs x).length = (signs y).length) :
    (xs.flatMap signs).length = (ys.flatMap signs).length := by
  induction h with
  | nil => rfl
  | cons here _ ih =>
    rw [List.forall_mem_cons] at each
    rw [List.flatMap_cons, List.flatMap_cons, List.length_append, List.length_append,
      each.1 _ here, ih each.2]

theorem length_zeroSigns_eq {v w : Json} (h : same v w) :
    v.zeroSigns.length = w.zeroSigns.length := by
  induction v using induct generalizing w with
  | null =>
    cases w with
    | null => rfl
    | _ => nomatch h
  | bool b =>
    cases w with
    | bool c => rfl
    | _ => nomatch h
  | number m =>
    cases w with
    | number n =>
      have zeros : m.zeroSign?.isSome = n.zeroSign?.isSome := Number.zeroSign?_isSome_eq h
      unfold zeroSigns
      cases hm : m.zeroSign? <;> cases hn : n.zeroSign? <;> simp_all
    | _ => nomatch h
  | string s =>
    cases w with
    | string t => rfl
    | _ => nomatch h
  | array xs ih =>
    cases w with
    | array ys =>
      rw [zeroSigns_array, zeroSigns_array]
      exact length_flatMap_eq (same_array.1 h) fun x mem y equal => ih x mem equal
    | _ => nomatch h
  | object es ih =>
    cases w with
    | object fs =>
      rw [zeroSigns_object, zeroSigns_object]
      exact length_flatMap_eq (same_object.1 h) fun e mem f equal => ih e mem equal.2
    | _ => nomatch h

/-- Signs of zeros that agree all along two equal lists agree at each place of them. -/
theorem forall₂_of_flatMap_eq {α : Type} {R : α → α → Prop} {signs : α → List Bool}
    {xs ys : List α} (h : List.Forall₂ R xs ys)
    (each : ∀ x ∈ xs, ∀ y, R x y → signs x = signs y → x = y)
    (count : ∀ x y, R x y → (signs x).length = (signs y).length)
    (flat : xs.flatMap signs = ys.flatMap signs) : xs = ys := by
  induction h with
  | nil => rfl
  | cons here _ ih =>
    rw [List.forall_mem_cons] at each
    rw [List.flatMap_cons, List.flatMap_cons] at flat
    obtain ⟨first, rest⟩ := List.append_inj flat (count _ _ here)
    rw [each.1 _ here first, ih each.2 rest]

/-- Equal values are one value exactly if their zeros have the same signs. -/
theorem eq_iff_same {v w : Json} : v = w ↔ v == w ∧ v.zeroSigns = w.zeroSigns := by
  constructor
  · rintro rfl
    exact ⟨same_refl v, rfl⟩
  rintro ⟨equal, signs⟩
  change same v w = true at equal
  induction v using induct generalizing w with
  | null =>
    cases w with
    | null => rfl
    | _ => nomatch equal
  | bool b =>
    cases w with
    | bool c => simpa [same] using equal
    | _ => nomatch equal
  | number m =>
    cases w with
    | number n =>
      unfold zeroSigns at signs
      have zeros : m.zeroSign? = n.zeroSign? := by
        cases hm : m.zeroSign? <;> cases hn : n.zeroSign? <;> simp_all
      rw [Number.eq_iff_same.2 ⟨equal, zeros⟩]
    | _ => nomatch equal
  | string s =>
    cases w with
    | string t => simpa [same] using equal
    | _ => nomatch equal
  | array xs ih =>
    cases w with
    | array ys =>
      rw [zeroSigns_array, zeroSigns_array] at signs
      rw [forall₂_of_flatMap_eq (same_array.1 equal) (fun x mem y same signs => ih x mem signs same)
        (fun _ _ => length_zeroSigns_eq) signs]
    | _ => nomatch equal
  | object es ih =>
    cases w with
    | object fs =>
      rw [zeroSigns_object, zeroSigns_object] at signs
      rw [forall₂_of_flatMap_eq (same_object.1 equal)
        (fun e mem f entry signs => Prod.ext entry.1 (ih e mem signs entry.2))
        (fun _ _ entry => length_zeroSigns_eq entry.2) signs]
    | _ => nomatch equal

/-! ## Texts -/

/-- The text of a value tells the value. -/
theorem compact_inj {v w : Json} : v.compact = w.compact ↔ v = w := by
  constructor
  · intro h
    have read : Raw.ofChars v.compact.toList = Raw.ofChars w.compact.toList := by rw [h]
    rw [ofChars_compact, ofChars_compact] at read
    have trees : Raw.ofJson v = Raw.ofJson w := (Prod.ext_iff.1 read).1
    have values : (Raw.ofJson v).toJson = (Raw.ofJson w).toJson := by rw [trees]
    rw [Raw.toJson_ofJson, Raw.toJson_ofJson] at values
    exact Except.ok.inj values
  · rintro rfl
    rfl

/-- One canonical text, equal canonical forms with the same signs at their zeros. -/
theorem canonicalText_eq_iff_same {v w : Json} : v.canonicalText = w.canonicalText ↔
    v.canonical == w.canonical ∧ v.canonical.zeroSigns = w.canonical.zeroSigns := by
  rw [canonicalText, canonicalText, canonicalValue_eq, canonicalValue_eq, compact_inj, eq_iff_same]

end Json

end Derivations

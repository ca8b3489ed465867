import Derivations.Json.Printer
import Derivations.Proofs.Json.Canonical
import Derivations.Proofs.Json.Number
import Derivations.Proofs.Json.Text

/-!
# The text of a value determines it

A value and what follows it are known by the whole text, provided that what follows does not go on
a number. So two values have one canonical text exactly if they agree.
-/

namespace Derivations

namespace Json

/-! ## The first character -/

/-- The characters that the text of a value can start with. -/
def opens : Json → Char → Bool
  | .null, c => c = 'n'
  | .bool true, c => c = 't'
  | .bool false, c => c = 'f'
  | .number _, c => isNumeral c
  | .string _, c => c = '"'
  | .array _, c => c = '['
  | .object _, c => c = '\x7b'

theorem chars_eq_cons (value : Json) :
    ∃ c rest, value.chars = c :: rest ∧ value.opens c = true := by
  cases value with
  | null => exact ⟨_, _, rfl, rfl⟩
  | bool b => cases b <;> exact ⟨_, _, rfl, rfl⟩
  | number n =>
    rw [chars]
    obtain ⟨c, rest, h⟩ := List.exists_cons_of_ne_nil n.chars_ne_nil
    exact ⟨c, rest, h, n.isNumeral_of_mem_chars (h ▸ List.mem_cons_self)⟩
  | string s => exact ⟨_, _, rfl, rfl⟩
  | array xs => cases xs <;> exact ⟨_, _, rfl, rfl⟩
  | object es => cases es <;> exact ⟨_, _, rfl, rfl⟩

theorem isNumeral_mark :
    ∀ c ∈ ['n', 't', 'f', '"', '[', ']', '\x7b'], isNumeral c = false := by
  have all : (['n', 't', 'f', '"', '[', ']', '\x7b'].all fun c => !isNumeral c) = true := by decide
  intro c hc
  simpa using List.all_eq_true.1 all c hc

/-- The first character of a text tells the kind of its value. -/
theorem ctorIdx_eq_of_append_eq {v w : Json} {r s : List Char}
    (h : v.chars ++ r = w.chars ++ s) : v.ctorIdx = w.ctorIdx := by
  obtain ⟨c, x, hv, first⟩ := chars_eq_cons v
  obtain ⟨d, y, hw, second⟩ := chars_eq_cons w
  rw [hv, hw, List.cons_append, List.cons_append, List.cons.injEq] at h
  rw [← h.1] at second
  rcases v with _ | (_ | _) | _ | _ | _ | _ <;> rcases w with _ | (_ | _) | _ | _ | _ | _ <;>
    simp_all [opens, isNumeral_mark, Json.ctorIdx]

/-- A closing bracket starts no value. -/
theorem append_ne_bracket {value : Json} {r s : List Char} :
    value.chars ++ r ≠ ']' :: s := by
  obtain ⟨c, rest, hv, first⟩ := chars_eq_cons value
  rw [hv, List.cons_append]
  rintro ⟨⟩
  cases value with
  | bool b => cases b <;> simp [opens] at first
  | number n => simp [opens, isNumeral_mark] at first
  | _ => simp [opens] at first

/-! ## Values -/

/-- The value and what follows it are known by the whole text. -/
def Separable (v : Json) : Prop :=
  ∀ w r s, Ends r → Ends s → v.chars ++ r = w.chars ++ s → Alike v w ∧ r = s

theorem ends_charsItems (xs : List Json) (r : List Char) : Ends (charsItems xs ++ r) := by
  cases xs <;> exact ends_cons rfl

theorem ends_charsEntries (es : List (String × Json)) (r : List Char) :
    Ends (charsEntries es ++ r) := by
  cases es <;> exact ends_cons rfl

theorem charsItems_append_inj {xs ys : List Json} (hx : ∀ x ∈ xs, Separable x) {r s : List Char}
    (h : charsItems xs ++ r = charsItems ys ++ s) : List.Forall₂ Alike xs ys ∧ r = s := by
  induction xs generalizing ys with
  | nil =>
    cases ys with
    | nil => exact ⟨.nil, by simpa [charsItems] using h⟩
    | cons y ys => simp [charsItems] at h
  | cons x xs ih =>
    cases ys with
    | nil => simp [charsItems] at h
    | cons y ys =>
      have texts : x.chars ++ (charsItems xs ++ r) = y.chars ++ (charsItems ys ++ s) := by
        simpa [charsItems] using h
      obtain ⟨head, rest⟩ := hx x List.mem_cons_self _ _ _ (ends_charsItems _ _)
        (ends_charsItems _ _) texts
      obtain ⟨tail, same⟩ := ih (fun z hz => hx z (List.mem_cons_of_mem _ hz)) rest
      exact ⟨.cons head tail, same⟩

/-- The entry in front of the rest of an object. -/
theorem entry_append_inj {k l : String} {x y : Json} (hx : Separable x)
    {es fs : List (String × Json)} {r s : List Char}
    (h : Text.quoted k ++ ':' :: (x.chars ++ (charsEntries es ++ r)) =
      Text.quoted l ++ ':' :: (y.chars ++ (charsEntries fs ++ s))) :
    (k = l ∧ Alike x y) ∧ charsEntries es ++ r = charsEntries fs ++ s := by
  obtain ⟨keys, rest⟩ := Text.quoted_append_inj.1 h
  obtain ⟨values, rest⟩ := hx _ _ _ (ends_charsEntries _ _) (ends_charsEntries _ _)
    (List.cons.inj rest).2
  exact ⟨⟨keys, values⟩, rest⟩

theorem charsEntries_append_inj {es fs : List (String × Json)} (he : ∀ e ∈ es, Separable e.2)
    {r s : List Char} (h : charsEntries es ++ r = charsEntries fs ++ s) :
    List.Forall₂ (fun e f => e.1 = f.1 ∧ Alike e.2 f.2) es fs ∧ r = s := by
  induction es generalizing fs with
  | nil =>
    cases fs with
    | nil => exact ⟨.nil, by simpa [charsEntries] using h⟩
    | cons f fs => simp [charsEntries] at h
  | cons e es ih =>
    cases fs with
    | nil => simp [charsEntries] at h
    | cons f fs =>
      obtain ⟨head, rest⟩ := entry_append_inj (he e List.mem_cons_self)
        (by simpa [charsEntries] using h)
      obtain ⟨tail, same⟩ := ih (fun z hz => he z (List.mem_cons_of_mem _ hz)) rest
      exact ⟨.cons head tail, same⟩

theorem separable_array {xs : List Json} (hx : ∀ x ∈ xs, Separable x) :
    Separable (.array xs) := by
  intro w r s hr hs h
  have kind := ctorIdx_eq_of_append_eq h
  cases w with
  | array ys =>
    rw [alike_array]
    cases xs with
    | nil =>
      cases ys with
      | nil => exact ⟨.nil, by simpa [chars] using h⟩
      | cons y ys =>
        have texts : y.chars ++ (charsItems ys ++ s) = ']' :: r := by simpa [chars] using h.symm
        exact absurd texts append_ne_bracket
    | cons x xs =>
      cases ys with
      | nil =>
        have texts : x.chars ++ (charsItems xs ++ r) = ']' :: s := by simpa [chars] using h
        exact absurd texts append_ne_bracket
      | cons y ys =>
        -- with a comma in front both are the rest of an array
        refine charsItems_append_inj hx ?_
        simpa [chars, charsItems] using h
  | _ => cases kind

theorem separable_object {es : List (String × Json)} (he : ∀ e ∈ es, Separable e.2) :
    Separable (.object es) := by
  intro w r s hr hs h
  have kind := ctorIdx_eq_of_append_eq h
  cases w with
  | object fs =>
    rw [alike_object]
    cases es with
    | nil =>
      cases fs with
      | nil => exact ⟨.nil, by simpa [chars] using h⟩
      | cons f fs => simp [chars, Text.quoted] at h
    | cons e es =>
      cases fs with
      | nil => simp [chars, Text.quoted] at h
      | cons f fs =>
        refine charsEntries_append_inj he ?_
        simpa [chars, charsEntries] using h
  | _ => cases kind

theorem separable_number (n : Number) : Separable (.number n) := by
  intro w r s hr hs h
  have kind := ctorIdx_eq_of_append_eq h
  cases w with
  | number m =>
    rw [chars, chars] at h
    rw [Alike]
    exact numerals_append_inj (fun _ => n.isNumeral_of_mem_chars)
      (fun _ => m.isNumeral_of_mem_chars) hr hs h
  | _ => cases kind

theorem separable_string (t : String) : Separable (.string t) := by
  intro w r s hr hs h
  have kind := ctorIdx_eq_of_append_eq h
  cases w with
  | string u =>
    rw [chars, chars, Text.quoted_append_inj] at h
    rwa [Alike]
  | _ => cases kind

theorem separable_bool (b : Bool) : Separable (.bool b) := by
  intro w r s hr hs h
  have kind := ctorIdx_eq_of_append_eq h
  cases w with
  | bool d => cases b <;> cases d <;> simp_all [chars, Alike]
  | _ => cases kind

theorem separable_null : Separable .null := by
  intro w r s hr hs h
  have kind := ctorIdx_eq_of_append_eq h
  cases w with
  | null => simp_all [chars, Alike]
  | _ => cases kind

theorem separable (value : Json) : Separable value := by
  induction value using induct with
  | null => exact separable_null
  | bool b => exact separable_bool b
  | number n => exact separable_number n
  | string s => exact separable_string s
  | array xs ih => exact separable_array ih
  | object es ih => exact separable_object ih

/-! ## Canonical texts -/

theorem charsItems_congr {xs ys : List Json}
    (h : List.Forall₂ (fun x y => x.chars = y.chars) xs ys) : charsItems xs = charsItems ys := by
  induction h with
  | nil => rfl
  | cons head _ ih => rw [charsItems, charsItems, head, ih]

theorem charsEntries_congr {es fs : List (String × Json)}
    (h : List.Forall₂ (fun e f => e.1 = f.1 ∧ e.2.chars = f.2.chars) es fs) :
    charsEntries es = charsEntries fs := by
  induction h with
  | nil => rfl
  | cons head _ ih => rw [charsEntries, charsEntries, head.1, head.2, ih]

theorem chars_eq_of_alike {v w : Json} (h : Alike v w) : v.chars = w.chars := by
  induction v using induct generalizing w with
  | null => cases w <;> simp_all [Alike]
  | bool b => cases w <;> simp_all [Alike]
  | number n => cases w <;> simp_all [Alike, chars]
  | string s => cases w <;> simp_all [Alike]
  | array xs ih =>
    cases w with
    | array ys =>
      have items : List.Forall₂ (fun x y => x.chars = y.chars) xs ys :=
        (List.forall₂_and_left xs ys).2 ⟨ih, alike_array.1 h⟩ |>.imp fun x y hxy => hxy.1 hxy.2
      cases items with
      | nil => rfl
      | cons head tail => rw [chars, chars, head, charsItems_congr tail]
    | _ => simp [Alike] at h
  | object es ih =>
    cases w with
    | object fs =>
      have entries : List.Forall₂ (fun e f => e.1 = f.1 ∧ e.2.chars = f.2.chars) es fs :=
        (List.forall₂_and_left es fs).2 ⟨ih, alike_object.1 h⟩ |>.imp
          fun e f hef => ⟨hef.2.1, hef.1 hef.2.2⟩
      cases entries with
      | nil => rfl
      | cons head tail => rw [chars, chars, head.1, head.2, charsEntries_congr tail]
    | _ => simp [Alike] at h

theorem chars_eq_iff {v w : Json} : v.chars = w.chars ↔ Alike v w := by
  constructor
  · intro h
    have texts : v.chars ++ [] = w.chars ++ [] := by rw [h]
    exact (separable v w [] [] ends_nil ends_nil texts).1
  · exact chars_eq_of_alike

/-- Two values have one canonical text exactly if they agree. -/
theorem canonicalText_eq_iff {v w : Json} : v.canonicalText = w.canonicalText ↔ Agree v w := by
  rw [canonicalText, canonicalText, canonicalValue_eq, canonicalValue_eq, compact, compact,
    String.ofList_inj, chars_eq_iff, Agree]

end Json

end Derivations

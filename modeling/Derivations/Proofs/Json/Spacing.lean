import Derivations.Json.Raw
import Derivations.Proofs.Json.Printer

/-!
# Texts with blanks

The compact and the pretty text of a value differ in the blanks between their parts. Both are
texts with some spacing: with no blanks at all, and with a line for every item and entry. Values
that are alike have one text in any spacing.
-/

namespace Derivations

namespace Json

/-- The blanks of a text: before an item, an entry or a closing bracket at a level of nesting, and
behind a colon. -/
structure Spacing where
  line : Nat → List Char
  gap : List Char
  blank_line : ∀ level, ∀ c ∈ line level, isBlank c = true
  blank_gap : ∀ c ∈ gap, isBlank c = true

namespace Spacing

def none : Spacing := ⟨fun _ => [], [], by simp, by simp⟩

/-- A line for every item and entry. -/
def lines : Spacing where
  line := lineBreak
  gap := [' ']
  blank_line level c mem := by
    rcases List.mem_cons.1 mem with rfl | space
    · rfl
    · obtain rfl := List.eq_of_mem_replicate space
      rfl
  blank_gap := List.forall_mem_singleton.2 rfl

mutual

/-- The text of a value at a level of nesting. -/
def chars (s : Spacing) (level : Nat) : Json → List Char
  | .array (x :: xs) =>
    '[' :: (s.line (level + 1) ++ (s.chars (level + 1) x ++ s.items level xs))
  | .object ((k, x) :: es) =>
    '\x7b' :: (s.line (level + 1) ++ (Text.quoted k ++ ':' :: (s.gap ++
      (s.chars (level + 1) x ++ s.entries level es))))
  | .null => Json.chars .null
  | .bool value => Json.chars (.bool value)
  | .number value => Json.chars (.number value)
  | .string value => Json.chars (.string value)
  | .array [] => Json.chars (.array [])
  | .object [] => Json.chars (.object [])

/-- The rest of an array after an item. -/
def items (s : Spacing) (level : Nat) : List Json → List Char
  | [] => s.line level ++ [']']
  | x :: xs => ',' :: (s.line (level + 1) ++ (s.chars (level + 1) x ++ s.items level xs))

/-- The rest of an object after an entry. -/
def entries (s : Spacing) (level : Nat) : List (String × Json) → List Char
  | [] => s.line level ++ ['\x7d']
  | (k, x) :: es =>
    ',' :: (s.line (level + 1) ++ (Text.quoted k ++ ':' :: (s.gap ++
      (s.chars (level + 1) x ++ s.entries level es))))

end

end Spacing

/-! ## The two printers -/

mutual

/-- The compact text is the one without blanks. -/
theorem chars_eq_spaced (level : Nat) : ∀ value : Json, value.chars = Spacing.none.chars level value
  | .null => rfl
  | .bool _ => rfl
  | .number _ => rfl
  | .string _ => rfl
  | .array [] => rfl
  | .array (x :: xs) => by
    rw [chars, Spacing.chars, chars_eq_spaced (level + 1) x, charsItems_eq_spaced level xs]
    rfl
  | .object [] => rfl
  | .object ((k, x) :: es) => by
    rw [chars, Spacing.chars, chars_eq_spaced (level + 1) x, charsEntries_eq_spaced level es]
    rfl

theorem charsItems_eq_spaced (level : Nat) :
    ∀ xs : List Json, charsItems xs = Spacing.none.items level xs
  | [] => rfl
  | x :: xs => by
    rw [charsItems, Spacing.items, chars_eq_spaced (level + 1) x, charsItems_eq_spaced level xs]
    rfl

theorem charsEntries_eq_spaced (level : Nat) :
    ∀ es : List (String × Json), charsEntries es = Spacing.none.entries level es
  | [] => rfl
  | (k, x) :: es => by
    rw [charsEntries, Spacing.entries, chars_eq_spaced (level + 1) x,
      charsEntries_eq_spaced level es]
    rfl

end

mutual

/-- The pretty text is the one with lines. -/
theorem prettyChars_eq_spaced (level : Nat) :
    ∀ value : Json, value.prettyChars level = Spacing.lines.chars level value
  | .null => rfl
  | .bool _ => rfl
  | .number _ => rfl
  | .string _ => rfl
  | .array [] => rfl
  | .array (x :: xs) => by
    rw [prettyChars, Spacing.chars, prettyChars_eq_spaced (level + 1) x,
      prettyItems_eq_spaced level xs, List.append_assoc]
    rfl
  | .object [] => rfl
  | .object ((k, x) :: es) => by
    rw [prettyChars, Spacing.chars, prettyChars_eq_spaced (level + 1) x,
      prettyEntries_eq_spaced level es, List.append_assoc]
    rfl

theorem prettyItems_eq_spaced (level : Nat) :
    ∀ xs : List Json, prettyItems level xs = Spacing.lines.items level xs
  | [] => rfl
  | x :: xs => by
    rw [prettyItems, Spacing.items, prettyChars_eq_spaced (level + 1) x,
      prettyItems_eq_spaced level xs, List.append_assoc]
    rfl

theorem prettyEntries_eq_spaced (level : Nat) :
    ∀ es : List (String × Json), prettyEntries level es = Spacing.lines.entries level es
  | [] => rfl
  | (k, x) :: es => by
    rw [prettyEntries, Spacing.entries, prettyChars_eq_spaced (level + 1) x,
      prettyEntries_eq_spaced level es, List.append_assoc]
    rfl

end

/-! ## Values that are alike -/

namespace Spacing

theorem items_congr {s : Spacing} {level : Nat} {xs ys : List Json}
    (h : List.Forall₂ (fun x y => ∀ level, s.chars level x = s.chars level y) xs ys) :
    s.items level xs = s.items level ys := by
  induction h with
  | nil => rfl
  | cons head _ ih => rw [items, items, head, ih]

theorem entries_congr {s : Spacing} {level : Nat} {es fs : List (String × Json)}
    (h : List.Forall₂ (fun e f => e.1 = f.1 ∧ ∀ level, s.chars level e.2 = s.chars level f.2)
      es fs) : s.entries level es = s.entries level fs := by
  induction h with
  | nil => rfl
  | cons head _ ih => rw [entries, entries, head.1, head.2, ih]

theorem chars_eq_of_alike (s : Spacing) {v w : Json} (h : Alike v w) (level : Nat) :
    s.chars level v = s.chars level w := by
  induction v using induct generalizing w level with
  | null => cases w <;> simp_all [Alike]
  | bool b => cases w <;> simp_all [Alike]
  | number n => cases w <;> simp_all [Alike, chars, Json.chars]
  | string t => cases w <;> simp_all [Alike]
  | array xs ih =>
    cases w with
    | array ys =>
      have items : List.Forall₂ (fun x y => ∀ level, s.chars level x = s.chars level y) xs ys :=
        (List.forall₂_and_left xs ys).2 ⟨ih, alike_array.1 h⟩ |>.imp
          fun x y both level => both.1 both.2 level
      cases items with
      | nil => rfl
      | cons head tail => rw [chars, chars, head, items_congr tail]
    | _ => simp [Alike] at h
  | object es ih =>
    cases w with
    | object fs =>
      have entries : List.Forall₂
          (fun e f => e.1 = f.1 ∧ ∀ level, s.chars level e.2 = s.chars level f.2) es fs :=
        (List.forall₂_and_left es fs).2 ⟨ih, alike_object.1 h⟩ |>.imp
          fun e f both => ⟨both.2.1, fun level => both.1 both.2.2 level⟩
      cases entries with
      | nil => rfl
      | cons head tail => rw [chars, chars, head.1, head.2, entries_congr tail]
    | _ => simp [Alike] at h

end Spacing

/-- Values that agree have one pretty canonical text. -/
theorem canonicalPretty_eq_of_agree {v w : Json} (h : Agree v w) :
    v.canonicalPretty = w.canonicalPretty := by
  rw [canonicalPretty, canonicalPretty, canonicalValue_eq, canonicalValue_eq, pretty, pretty,
    prettyChars_eq_spaced, prettyChars_eq_spaced, Spacing.lines.chars_eq_of_alike h]

end Json

end Derivations

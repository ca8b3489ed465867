import Derivations.Proofs.Json.NumberText
import Derivations.Proofs.Json.Spacing

/-!
# Texts read back

The text of a value, in any spacing, is read as the tree of that value, up to where the value
ends. Every character takes at most two steps of the reader, so twice the length is steps enough.
-/

namespace Derivations

namespace Json

open Numeral (Stops)

/-! ## Blanks -/

section Blanks

variable {blanks text : List Char} {c : Char} (steps : Nat)

theorem skipBlanks_append (h : ∀ c ∈ blanks, isBlank c = true) (text : List Char) :
    skipBlanks (blanks ++ text) = skipBlanks text := List.dropWhile_append_of_pos h

theorem skipBlanks_cons (h : isBlank c = false) (text : List Char) :
    skipBlanks (c :: text) = c :: text := List.dropWhile_cons_of_neg (by simp [h])

theorem read_blanks (h : ∀ c ∈ blanks, isBlank c = true) :
    Raw.read steps (blanks ++ text) = Raw.read steps text := by
  cases steps with
  | zero => rfl
  | succ steps => rw [Raw.read, Raw.read, skipBlanks_append h]

theorem readItems_blanks (h : ∀ c ∈ blanks, isBlank c = true) :
    Raw.readItems steps (blanks ++ text) = Raw.readItems steps text := by
  cases steps with
  | zero => rfl
  | succ steps => rw [Raw.readItems, Raw.readItems, read_blanks steps h]

theorem readEntries_blanks (h : ∀ c ∈ blanks, isBlank c = true) :
    Raw.readEntries steps (blanks ++ text) = Raw.readEntries steps text := by
  cases steps with
  | zero => rfl
  | succ steps => rw [Raw.readEntries, Raw.readEntries, skipBlanks_append h]

end Blanks

/-- A character that a value starts with is neither a blank nor a closing bracket. -/
theorem plain_of_opens {value : Json} {c : Char} (h : value.opens c = true) :
    isBlank c = false ∧ c ≠ ']' ∧ c ≠ '\x7d' := by
  cases value with
  | number n =>
    have marks : ∀ d ∈ [' ', '\t', '\n', '\r', ']', '\x7d'], isNumeral d = false := by
      simp [isNumeral]
    have ne : ∀ d ∈ [' ', '\t', '\n', '\r', ']', '\x7d'], c ≠ d := by
      rintro d mem rfl
      rw [opens, marks c mem] at h
      exact Bool.false_ne_true h
    simp only [List.forall_mem_cons] at ne
    simp [isBlank, ne]
  | bool b => cases b <;> (simp only [opens, decide_eq_true_eq] at h; subst h; decide)
  | _ =>
    simp only [opens, decide_eq_true_eq] at h
    subst h
    decide

namespace Spacing

variable (s : Spacing)

theorem chars_eq_cons (level : Nat) (value : Json) :
    ∃ c rest, s.chars level value = c :: rest ∧ value.opens c = true := by
  cases value with
  | array xs =>
    cases xs with
    | nil => exact ⟨_, _, rfl, rfl⟩
    | cons x xs => exact ⟨_, _, rfl, rfl⟩
  | object es =>
    cases es with
    | nil => exact ⟨_, _, rfl, rfl⟩
    | cons e es => exact ⟨_, _, rfl, rfl⟩
  | null => exact Json.chars_eq_cons .null
  | bool b => exact Json.chars_eq_cons (.bool b)
  | number n => exact Json.chars_eq_cons (.number n)
  | string t => exact Json.chars_eq_cons (.string t)

theorem stops_blanks {blanks : List Char} (h : ∀ c ∈ blanks, isBlank c = true) {c : Char}
    (stops : Stops [c]) (rest : List Char) : Stops (blanks ++ c :: rest) := by
  cases blanks with
  | nil => exact stops
  | cons b blanks =>
    have marks : ∀ d, isBlank d = true → d.isDigit = false ∧ d ≠ '.' ∧ d ≠ 'e' ∧ d ≠ 'E' := by
      intro d blank
      simp only [isBlank, Bool.or_eq_true, decide_eq_true_eq] at blank
      rcases blank with ((rfl | rfl) | rfl) | rfl <;> decide
    intro d first
    obtain rfl : b = d := by simpa using first
    exact marks b (h b List.mem_cons_self)

theorem stops_items (level : Nat) (xs : List Json) (rest : List Char) :
    Stops (s.items level xs ++ rest) := by
  cases xs with
  | nil =>
    rw [items, List.append_assoc]
    exact stops_blanks (s.blank_line level) (by simp [Stops]) rest
  | cons x xs => simp [items, Stops]

theorem stops_entries (level : Nat) (es : List (String × Json)) (rest : List Char) :
    Stops (s.entries level es ++ rest) := by
  cases es with
  | nil =>
    rw [entries, List.append_assoc]
    exact stops_blanks (s.blank_line level) (by simp [Stops]) rest
  | cons e es => simp [entries, Stops]

/-- The value is read from its text. -/
def Reads (value : Json) : Prop :=
  ∀ level rest steps, Stops rest → 2 * (s.chars level value).length + 2 ≤ steps →
    Raw.read steps (s.chars level value ++ rest) = (.ofJson value, .ok rest)

variable {s}

theorem reads_of_succ {value : Json}
    (h : ∀ level rest steps, Stops rest → 2 * (s.chars level value).length + 1 ≤ steps →
      Raw.read (steps + 1) (s.chars level value ++ rest) = (.ofJson value, .ok rest)) :
    s.Reads value := by
  intro level rest steps stops enough
  cases steps with
  | zero => omega
  | succ steps => exact h level rest steps stops (by omega)

/-! ## Scalars -/

theorem reads_null : s.Reads .null := reads_of_succ fun _ _ _ _ _ => rfl

theorem reads_bool (b : Bool) : s.Reads (.bool b) := by
  cases b <;> exact reads_of_succ fun _ _ _ _ _ => rfl

theorem spelled_pieces (t : String) :
    Raw.spelled (t.toList.reverse.map Text.pieceOf ++ []) = some t := by
  rw [Raw.spelled, List.append_nil, Text.join?_map_pieceOf]
  simp

theorem quoted_append (t : String) (text : List Char) :
    Text.quoted t ++ text = '"' :: (Text.escape t.toList ++ '"' :: text) := by
  simp [Text.quoted]

theorem reads_string (t : String) : s.Reads (.string t) := by
  refine reads_of_succ fun level rest steps stops enough => ?_
  show Raw.read (steps + 1) (Text.quoted t ++ rest) = _
  rw [quoted_append, Raw.read, skipBlanks_cons (by decide)]
  simp only [Raw.ofString, Text.scan_escape, spelled_pieces]
  rfl

theorem read_numeral {c : Char} (h : c = '-' ∨ c.isDigit = true) (steps : Nat)
    (rest : List Char) :
    Raw.read (steps + 1) (c :: rest) = Raw.ofScan (Numeral.scan (c :: rest)) := by
  have marks : ∀ d ∈ [' ', '\t', '\n', '\r', '"', '[', '\x7b', 'n', 't', 'f'],
      ¬ (d = '-' ∨ d.isDigit = true) := by simp
  have ne : ∀ d ∈ [' ', '\t', '\n', '\r', '"', '[', '\x7b', 'n', 't', 'f'], c ≠ d := by
    rintro d mem rfl
    exact marks c mem h
  simp only [List.forall_mem_cons] at ne
  rw [Raw.read, skipBlanks_cons (by simp [isBlank, ne])]
  split
  case h_8 same =>
    cases same
    exact if_pos h
  all_goals simp_all

theorem reads_number (n : Number) : s.Reads (.number n) := by
  refine reads_of_succ fun level rest steps stops enough => ?_
  obtain ⟨numeral, wellFormed, text, value⟩ := n.exists_numeral
  obtain ⟨c, more, first, opens⟩ := wellFormed.chars_eq_cons
  have scanned := Numeral.scan_chars wellFormed stops
  show Raw.read (steps + 1) (n.chars ++ rest) = _
  rw [text, first] at *
  rw [List.cons_append, read_numeral opens, ← List.cons_append, scanned, Raw.ofScan, value]
  rfl

/-! ## Steps of the reader -/

section Steps

variable {steps : Nat} {c : Char} {blanks text after behind : List Char} {item : Raw}
  {key : String}

/-- An array that does not end at once. -/
theorem read_array (h : ∀ c ∈ blanks, isBlank c = true) (plain : isBlank c = false)
    (bracket : c ≠ ']') : Raw.read (steps + 1) ('[' :: (blanks ++ c :: text)) =
      (.array (Raw.readItems steps (c :: text)).1 (Raw.stopOf (Raw.readItems steps (c :: text)).2),
        (Raw.readItems steps (c :: text)).2) := by
  rw [Raw.read, skipBlanks_cons (by decide)]
  simp only [skipBlanks_append h, skipBlanks_cons plain]
  split
  · rename_i same
    cases same
    exact absurd rfl bracket
  · rfl

/-- An object that does not end at once. -/
theorem read_object (h : ∀ c ∈ blanks, isBlank c = true) :
    Raw.read (steps + 1) ('\x7b' :: (blanks ++ (Text.quoted key ++ text))) =
      (.object (Raw.readEntries steps (Text.quoted key ++ text)).1
        (Raw.stopOf (Raw.readEntries steps (Text.quoted key ++ text)).2),
        (Raw.readEntries steps (Text.quoted key ++ text)).2) := by
  rw [quoted_append, Raw.read, skipBlanks_cons (by decide)]
  simp only [skipBlanks_append h, skipBlanks_cons (c := '"') (by decide)]
  rfl

/-- One item of an array, with more behind it. -/
theorem readItems_more (first : Raw.read steps text = (item, .ok after))
    (comma : skipBlanks after = ',' :: behind) :
    Raw.readItems (steps + 1) text =
      (item :: (Raw.readItems steps behind).1, (Raw.readItems steps behind).2) := by
  rw [Raw.readItems, first]
  simp only [comma]

theorem readItems_last (first : Raw.read steps text = (item, .ok after))
    (close : skipBlanks after = ']' :: behind) :
    Raw.readItems (steps + 1) text = ([item], .ok behind) := by
  rw [Raw.readItems, first]
  simp only [close]

/-- One entry of an object, with more behind it. -/
theorem readEntries_more (first : Raw.read steps text = (item, .ok after))
    (comma : skipBlanks after = ',' :: behind) :
    Raw.readEntries (steps + 1) (Text.quoted key ++ ':' :: text) =
      ((.ok key, item) :: (Raw.readEntries steps behind).1,
        (Raw.readEntries steps behind).2) := by
  rw [quoted_append, Raw.readEntries, skipBlanks_cons (by decide)]
  simp only [Text.scan_escape, spelled_pieces, skipBlanks_cons (c := ':') (by decide), first,
    comma]

theorem readEntries_last (first : Raw.read steps text = (item, .ok after))
    (close : skipBlanks after = '\x7d' :: behind) :
    Raw.readEntries (steps + 1) (Text.quoted key ++ ':' :: text) =
      ([(.ok key, item)], .ok behind) := by
  rw [quoted_append, Raw.readEntries, skipBlanks_cons (by decide)]
  simp only [Text.scan_escape, spelled_pieces, skipBlanks_cons (c := ':') (by decide), first,
    close]

end Steps

/-! ## Arrays and objects -/

/-- The items of an array are read up to its end. -/
theorem readItems_items {x : Json} {xs : List Json} (h : ∀ y ∈ x :: xs, s.Reads y) (level : Nat)
    (rest : List Char) (steps : Nat)
    (enough : 2 * (s.chars (level + 1) x ++ s.items level xs).length + 3 ≤ steps) :
    Raw.readItems steps (s.chars (level + 1) x ++ (s.items level xs ++ rest)) =
      (Raw.ofItems (x :: xs), .ok rest) := by
  induction xs generalizing x steps with
  | nil =>
    cases steps with
    | zero => omega
    | succ steps =>
      have first := h x List.mem_cons_self (level + 1) _ steps (s.stops_items level [] rest)
        (by rw [List.length_append] at enough; omega)
      refine readItems_last first ?_
      rw [items, List.append_assoc, skipBlanks_append (s.blank_line level)]
      rfl
  | cons y ys ih =>
    cases steps with
    | zero => omega
    | succ steps =>
      have first := h x List.mem_cons_self (level + 1) _ steps (s.stops_items level (y :: ys) rest)
        (by rw [List.length_append] at enough; omega)
      have later := ih (x := y) (fun z mem => h z (List.mem_cons_of_mem _ mem)) steps
        (by simp [items] at enough ⊢; omega)
      have comma : skipBlanks (s.items level (y :: ys) ++ rest) = ',' :: (s.line (level + 1) ++
          (s.chars (level + 1) y ++ (s.items level ys ++ rest))) := by
        rw [items, List.cons_append, skipBlanks_cons (by decide), List.append_assoc,
          List.append_assoc]
      rw [readItems_more first comma, readItems_blanks steps (s.blank_line _), later]
      rfl

theorem reads_array {xs : List Json} (h : ∀ x ∈ xs, s.Reads x) : s.Reads (.array xs) := by
  refine reads_of_succ fun level rest steps stops enough => ?_
  cases xs with
  | nil => rfl
  | cons x xs =>
    have inner := readItems_items h level rest steps (by simp [chars] at enough ⊢; omega)
    obtain ⟨c, more, first, opens⟩ := s.chars_eq_cons (level + 1) x
    obtain ⟨plain, bracket, -⟩ := plain_of_opens opens
    rw [chars, List.cons_append, List.append_assoc, List.append_assoc, first, List.cons_append,
      read_array (s.blank_line _) plain bracket, ← List.cons_append, ← first, inner]
    rfl

/-- The entries of an object are read up to its end. -/
theorem readEntries_entries {k : String} {x : Json} {es : List (String × Json)}
    (h : ∀ e ∈ (k, x) :: es, s.Reads e.2) (level : Nat) (rest : List Char) (steps : Nat)
    (enough : 2 * (s.chars (level + 1) x ++ s.entries level es).length + 3 ≤ steps) :
    Raw.readEntries steps (Text.quoted k ++ ':' :: (s.gap ++
      (s.chars (level + 1) x ++ (s.entries level es ++ rest)))) =
      (Raw.ofEntries ((k, x) :: es), .ok rest) := by
  induction es generalizing k x steps with
  | nil =>
    cases steps with
    | zero => omega
    | succ steps =>
      have first := h _ List.mem_cons_self (level + 1) _ steps (s.stops_entries level [] rest)
        (by rw [List.length_append] at enough; dsimp only; omega)
      refine readEntries_last ((read_blanks steps s.blank_gap).trans first) ?_
      rw [entries, List.append_assoc, skipBlanks_append (s.blank_line level)]
      rfl
  | cons e es ih =>
    cases steps with
    | zero => omega
    | succ steps =>
      obtain ⟨l, y⟩ := e
      have first := h _ List.mem_cons_self (level + 1) _ steps
        (s.stops_entries level ((l, y) :: es) rest)
        (by rw [List.length_append] at enough; dsimp only; omega)
      have later := ih (k := l) (x := y) (fun z mem => h z (List.mem_cons_of_mem _ mem)) steps
        (by simp [entries] at enough ⊢; omega)
      have comma : skipBlanks (s.entries level ((l, y) :: es) ++ rest) =
          ',' :: (s.line (level + 1) ++ (Text.quoted l ++ ':' :: (s.gap ++
            (s.chars (level + 1) y ++ (s.entries level es ++ rest))))) := by
        rw [entries, List.cons_append, skipBlanks_cons (by decide)]
        simp only [List.append_assoc, List.cons_append]
      rw [readEntries_more ((read_blanks steps s.blank_gap).trans first) comma,
        readEntries_blanks steps (s.blank_line _), later]
      rfl

theorem reads_object {es : List (String × Json)} (h : ∀ e ∈ es, s.Reads e.2) :
    s.Reads (.object es) := by
  refine reads_of_succ fun level rest steps stops enough => ?_
  cases es with
  | nil => rfl
  | cons e es =>
    obtain ⟨k, x⟩ := e
    have inner := readEntries_entries h level rest steps (by simp [chars] at enough ⊢; omega)
    rw [chars]
    simp only [List.append_assoc, List.cons_append]
    rw [read_object (s.blank_line _), inner]
    rfl

/-- Every value is read from its text, in any spacing. -/
theorem reads (s : Spacing) (value : Json) : s.Reads value := by
  induction value using induct with
  | null => exact reads_null
  | bool b => exact reads_bool b
  | number n => exact reads_number n
  | string t => exact reads_string t
  | array xs ih => exact reads_array ih
  | object es ih => exact reads_object ih

end Spacing

/-! ## Whole texts -/

theorem ofChars_pretty (value : Json) :
    Raw.ofChars value.pretty.toList = (.ofJson value, .ok []) := by
  rw [pretty, String.toList_ofList, prettyChars_eq_spaced, Raw.ofChars]
  have read := Spacing.lines.reads value 0 [] _ (by simp [Stops]) (Nat.le_refl _)
  rwa [List.append_nil] at read

theorem ofChars_compact (value : Json) :
    Raw.ofChars value.compact.toList = (.ofJson value, .ok []) := by
  rw [compact, String.toList_ofList, chars_eq_spaced 0, Raw.ofChars]
  have read := Spacing.none.reads value 0 [] _ (by simp [Stops]) (Nat.le_refl _)
  rwa [List.append_nil] at read

end Json

end Derivations

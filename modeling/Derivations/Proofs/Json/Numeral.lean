import Mathlib.Algebra.Group.Nat.Defs
import Derivations.Json.Raw

/-!
# Numerals are scanned from their text

A numeral that keeps the rules of the format is scanned from its own text, up to where the text
goes on with something that is no part of a number.
-/

namespace Derivations

namespace Json

namespace Numeral

/-! ## Scanning -/

/-- At least one digit and nothing else. -/
structure IsDigits (digits : List Char) : Prop where
  ne_nil : digits ≠ []
  all : ∀ c ∈ digits, c.isDigit = true

/-- A rest of a text in which no number goes on. -/
def Stops (rest : List Char) : Prop :=
  ∀ c ∈ rest.head?, c.isDigit = false ∧ c ≠ '.' ∧ c ≠ 'e' ∧ c ≠ 'E'

def fractionChars : Option (List Char) → List Char
  | none => []
  | some digits => '.' :: digits

def exponentChars : Option (Bool × List Char) → List Char
  | none => []
  | some (negative, digits) => 'e' :: (if negative then '-' else '+') :: digits

/-- The text of a numeral. -/
def chars (n : Numeral) : List Char :=
  Number.signChars n.negative ++ n.whole ++ fractionChars n.fraction ++ exponentChars n.exponent

/-- Digits where digits have to be, and no zero in front of others. -/
structure WellFormed (n : Numeral) : Prop where
  whole : IsDigits n.whole
  lead : n.whole.head? = some '0' → n.whole.length = 1
  fraction : ∀ digits ∈ n.fraction, IsDigits digits
  exponent : ∀ e ∈ n.exponent, IsDigits e.2

theorem scanDigits_append {digits rest : List Char} (h : IsDigits digits)
    (stops : ∀ c ∈ rest.head?, c.isDigit = false) :
    scanDigits (digits ++ rest) = .ok (digits, rest) := by
  have taken : (digits ++ rest).takeWhile Char.isDigit = digits := by
    rw [List.takeWhile_append_of_pos h.all]
    cases rest with
    | nil => simp
    | cons c rest => simp [stops c rfl]
  have left : (digits ++ rest).dropWhile Char.isDigit = rest := by
    rw [List.dropWhile_append_of_pos h.all]
    cases rest with
    | nil => rfl
    | cons c rest => simp [stops c rfl]
  simp only [scanDigits, taken, left]
  cases digits with
  | nil => exact absurd rfl h.ne_nil
  | cons c digits => rfl

theorem head?_exponentChars {exponent : Option (Bool × List Char)} {rest : List Char}
    (stops : Stops rest) : ∀ c ∈ (exponentChars exponent ++ rest).head?,
      c.isDigit = false ∧ c ≠ '.' := by
  cases exponent with
  | none => exact fun c hc => ⟨(stops c hc).1, (stops c hc).2.1⟩
  | some e => simp [exponentChars]

theorem scanFraction_append {fraction : Option (List Char)} {rest : List Char}
    (h : ∀ digits ∈ fraction, IsDigits digits)
    (stops : ∀ c ∈ rest.head?, c.isDigit = false ∧ c ≠ '.') :
    scanFraction (fractionChars fraction ++ rest) = .ok (fraction, rest) := by
  cases fraction with
  | none =>
    rw [fractionChars, List.nil_append]
    unfold scanFraction
    split
    · exact absurd rfl (stops '.' rfl).2
    · rfl
  | some digits =>
    rw [fractionChars, List.cons_append, scanFraction,
      scanDigits_append (h digits rfl) fun c hc => (stops c hc).1]
    rfl

theorem scanExponent_append {exponent : Option (Bool × List Char)} {rest : List Char}
    (h : ∀ e ∈ exponent, IsDigits e.2) (stops : Stops rest) :
    scanExponent (exponentChars exponent ++ rest) = .ok (exponent, rest) := by
  cases exponent with
  | none =>
    cases rest with
    | nil => rfl
    | cons c rest =>
      have plain : ¬ (c = 'e' ∨ c = 'E') := not_or.2 (stops c rfl).2.2
      rw [exponentChars, List.nil_append]
      unfold scanExponent
      dsimp only
      rw [if_neg plain]
  | some e =>
    obtain ⟨negative, digits⟩ := e
    have scanned : scanDigits (digits ++ rest) = .ok (digits, rest) :=
      scanDigits_append (h _ rfl) fun c hc => (stops c hc).1
    rw [exponentChars]
    unfold scanExponent
    cases negative with
    | false =>
      simp only [List.cons_append, true_or, if_true, Bool.false_eq_true, if_false, scanned]
      rfl
    | true =>
      simp only [List.cons_append, true_or, if_true, scanned]
      rfl

/-- What is scanned behind the sign. -/
def scanUnsigned (negative : Bool) (text : List Char) :
    Except (Fault × Fault) (Numeral × List Char) := do
  let (whole, text) ← scanDigits text
  if whole.head? = some '0' ∧ whole.length ≠ 1 then .error (.malformed, .malformed)
  let (fraction, text) ← scanFraction text
  let (exponent, text) ← scanExponent text
  return (⟨negative, whole, fraction, exponent⟩, text)

theorem scan_unsigned {text : List Char} (h : text.head? ≠ some '-') :
    scan text = scanUnsigned false text := by
  unfold scan
  split
  rename_i negative rest signed
  split at signed
  · exact absurd rfl h
  · cases signed
    rfl

theorem scanUnsigned_append {n : Numeral} (h : n.WellFormed) {rest : List Char}
    (stops : Stops rest) :
    scanUnsigned n.negative (n.whole ++ (fractionChars n.fraction ++
      (exponentChars n.exponent ++ rest))) = .ok (n, rest) := by
  have behind : ∀ c ∈ (fractionChars n.fraction ++ (exponentChars n.exponent ++ rest)).head?,
      c.isDigit = false := by
    cases n.fraction with
    | none => exact fun c hc => (head?_exponentChars stops c hc).1
    | some digits => simp [fractionChars]
  have leading : ¬ (n.whole.head? = some '0' ∧ n.whole.length ≠ 1) :=
    fun both => both.2 (h.lead both.1)
  simp only [scanUnsigned, scanDigits_append h.whole behind, bind, Except.bind, pure, Except.pure,
    if_neg leading, scanFraction_append h.fraction (head?_exponentChars stops),
    scanExponent_append h.exponent stops]

/-- A well-formed numeral is scanned from its text. -/
theorem scan_chars {n : Numeral} (h : n.WellFormed) {rest : List Char} (stops : Stops rest) :
    scan (n.chars ++ rest) = .ok (n, rest) := by
  have scanned := scanUnsigned_append h stops
  simp only [chars, List.append_assoc]
  cases negative : n.negative with
  | true =>
    rw [negative] at scanned
    exact scanned
  | false =>
    rw [negative] at scanned
    refine (scan_unsigned ?_).trans scanned
    cases whole : n.whole with
    | nil => exact absurd whole h.whole.ne_nil
    | cons c digits =>
      have digit := h.whole.all c (whole ▸ List.mem_cons_self)
      rintro ⟨⟩
      nomatch digit

theorem WellFormed.chars_eq_cons {n : Numeral} (h : n.WellFormed) :
    ∃ c rest, n.chars = c :: rest ∧ (c = '-' ∨ c.isDigit = true) := by
  obtain ⟨c, digits, whole⟩ := List.exists_cons_of_ne_nil h.whole.ne_nil
  have digit := h.whole.all c (whole ▸ List.mem_cons_self)
  rw [chars, whole]
  cases n.negative with
  | true => exact ⟨'-', _, rfl, .inl rfl⟩
  | false => exact ⟨c, _, rfl, .inr digit⟩

/-! ## Digits -/

theorem digitsValue_append (xs ys : List Char) :
    digitsValue (xs ++ ys) = 10 ^ ys.length * digitsValue xs + digitsValue ys := by
  rw [digitsValue, Nat.ofDigitChars_append, Nat.ofDigitChars_eq_ofDigitChars_zero]
  rfl

theorem digitsValue_zeros (k : Nat) : digitsValue (List.replicate k '0') = 0 := by
  rw [digitsValue, Nat.ofDigitChars_replicate_zero, Nat.mul_zero]

theorem digitsValue_append_zeros (digits : List Char) (k : Nat) :
    digitsValue (digits ++ List.replicate k '0') = digitsValue digits * 10 ^ k := by
  rw [digitsValue_append, digitsValue_zeros, List.length_replicate, Nat.add_zero, Nat.mul_comm]

theorem digitsValue_zeros_append (digits : List Char) (k : Nat) :
    digitsValue (List.replicate k '0' ++ digits) = digitsValue digits := by
  rw [digitsValue_append, digitsValue_zeros, Nat.mul_zero, Nat.zero_add]

theorem isDigits_zero : IsDigits ['0'] :=
  ⟨List.cons_ne_nil _ _, List.forall_mem_singleton.2 rfl⟩

theorem isDigits_toDigits (n : Nat) : IsDigits (Nat.toDigits 10 n) :=
  ⟨Nat.toDigits_ne_nil, fun _ => Nat.isDigit_of_mem_toDigits (by decide) (by decide)⟩

/-- Only zero is written with a zero in front. -/
theorem eq_zero_of_head?_toDigits {n : Nat} (h : (Nat.toDigits 10 n).head? = some '0') :
    n = 0 := by
  induction n using Nat.strongRecOn with
  | ind n ih =>
    by_cases small : n < 10
    · rw [Nat.toDigits_of_lt_base small, List.head?_cons, Option.some.injEq] at h
      exact Nat.digitChar_eq_zero.1 h
    · have large : 10 ≤ n := Nat.le_of_not_lt small
      obtain ⟨c, rest, digits⟩ := List.exists_cons_of_ne_nil
        (Nat.toDigits_ne_nil (n := n / 10) (b := 10))
      rw [Nat.toDigits_of_base_le (by decide) large, digits] at h
      have := ih (n / 10) (Nat.div_lt_self (by omega) (by decide)) (digits ▸ h)
      omega

end Numeral

end Json

end Derivations

import Derivations.Json.Number

/-!
# The characters of numbers

The text of a number is made of a few characters and is never empty. So where a text goes on with
none of these, the number and what follows it are known by the whole text.
-/

namespace Derivations

/-- The characters of a number. -/
def isNumeral (c : Char) : Bool := c.isDigit || c ∈ ['-', '+', '.', 'e']

theorem isNumeral_of_mem_toDigits {n : Nat} {c : Char} (h : c ∈ Nat.toDigits 10 n) :
    isNumeral c = true := by
  rw [isNumeral, Nat.isDigit_of_mem_toDigits (by decide) (by decide) h, Bool.true_or]

namespace Decimal

theorem isNumeral_of_mem_digits {d : Decimal} {c : Char} (h : c ∈ d.digits) :
    isNumeral c = true := by
  rw [digits, List.mem_reverse] at h
  exact isNumeral_of_mem_toDigits (List.mem_reverse.1 ((List.dropWhile_sublist _).mem h))

theorem isNumeral_of_mem_positional {digits : List Char} (hd : ∀ c ∈ digits, isNumeral c = true)
    {lead : Int} {c : Char} (h : c ∈ positional digits lead) : isNumeral c = true := by
  have zero : isNumeral '0' = true := rfl
  have point : isNumeral '.' = true := rfl
  cases lead with
  | ofNat lead =>
    simp only [positional, List.mem_append, List.mem_replicate, List.mem_cons] at h
    rcases h with (h | ⟨-, rfl⟩) | rfl | h
    · exact hd c (List.mem_of_mem_take h)
    · exact zero
    · exact point
    · split at h
      · rw [List.mem_singleton.1 h, zero]
      · exact hd c (List.mem_of_mem_drop h)
  | negSucc gap =>
    simp only [positional, List.mem_append, List.mem_replicate, List.mem_cons] at h
    rcases h with rfl | rfl | ⟨-, rfl⟩ | h
    · exact zero
    · exact point
    · exact zero
    · exact hd c h

theorem isNumeral_of_mem_scientific {digits : List Char} (hd : ∀ c ∈ digits, isNumeral c = true)
    {lead : Int} {c : Char} (h : c ∈ scientific digits lead) : isNumeral c = true := by
  have point : isNumeral '.' = true := rfl
  have mark : isNumeral 'e' = true := rfl
  have minus : isNumeral '-' = true := rfl
  have plus : isNumeral '+' = true := rfl
  simp only [scientific, List.mem_append, List.mem_cons] at h
  rcases h with (h | h) | rfl | rfl | h
  · exact hd c (List.mem_of_mem_take h)
  · split at h
    · nomatch h
    · rcases List.mem_cons.1 h with rfl | h
      · exact point
      · exact hd c (List.mem_of_mem_drop h)
  · exact mark
  · split
    · exact minus
    · exact plus
  · exact isNumeral_of_mem_toDigits h

theorem chars_ne_nil (layout : Layout) (d : Decimal) : d.chars layout ≠ [] := by
  unfold chars
  split
  · cases d.lead <;> simp [positional]
  · simp [scientific]

theorem isNumeral_of_mem_chars {layout : Layout} {d : Decimal} {c : Char}
    (h : c ∈ d.chars layout) : isNumeral c = true := by
  unfold chars at h
  split at h
  · exact isNumeral_of_mem_positional (fun _ => isNumeral_of_mem_digits) h
  · exact isNumeral_of_mem_scientific (fun _ => isNumeral_of_mem_digits) h

end Decimal

namespace Json

theorem Number.chars_ne_nil (n : Number) : n.chars ≠ [] := by
  cases n with
  | integer value inRange =>
    exact fun h => Nat.toDigits_ne_nil (List.append_eq_nil_iff.1 h).2
  | float value =>
    intro h
    have digits := (List.append_eq_nil_iff.1 h).2
    split at digits
    · nomatch digits
    · exact Decimal.chars_ne_nil _ _ digits

theorem Number.isNumeral_of_mem_chars {n : Number} {c : Char} (h : c ∈ n.chars) :
    isNumeral c = true := by
  have sign (negative : Bool) (h : c ∈ signChars negative) : isNumeral c = true := by
    cases negative with
    | false => nomatch h
    | true => rw [List.mem_singleton.1 h]; rfl
  cases n with
  | integer value inRange =>
    rcases List.mem_append.1 h with h | h
    · exact sign _ h
    · exact isNumeral_of_mem_toDigits h
  | float value =>
    rcases List.mem_append.1 h with h | h
    · exact sign _ h
    · split at h
      · have all : ['0', '.', '0'].all isNumeral = true := by decide
        exact List.all_eq_true.1 all c h
      · exact Decimal.isNumeral_of_mem_chars h

/-- A rest of a text that does not go on a number. -/
def Ends (rest : List Char) : Prop := ∀ c ∈ rest.head?, isNumeral c = false

theorem ends_nil : Ends [] := by
  intro c h
  nomatch h

theorem ends_cons {c : Char} {rest : List Char} (h : isNumeral c = false) : Ends (c :: rest) := by
  rintro d ⟨⟩
  exact h

/-- Numerals and what ends them are known by the whole text. -/
theorem numerals_append_inj {xs ys r s : List Char} (hx : ∀ c ∈ xs, isNumeral c = true)
    (hy : ∀ c ∈ ys, isNumeral c = true) (hr : Ends r) (hs : Ends s) (h : xs ++ r = ys ++ s) :
    xs = ys ∧ r = s := by
  have left : (xs ++ r).takeWhile isNumeral = xs := by
    rw [List.takeWhile_append_of_pos hx]
    cases r with
    | nil => simp
    | cons c r => simp [hr c rfl]
  have right : (ys ++ s).takeWhile isNumeral = ys := by
    rw [List.takeWhile_append_of_pos hy]
    cases s with
    | nil => simp
    | cons c s => simp [hs c rfl]
  have same : xs = ys := by rw [← left, h, right]
  exact ⟨same, List.append_cancel_left (same ▸ h)⟩

end Json

end Derivations

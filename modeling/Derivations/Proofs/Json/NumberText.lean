import Derivations.Proofs.Decimal.Shortest
import Derivations.Proofs.Json.Numeral

/-!
# Numbers read back

The text of every number is that of a numeral, and the numeral stands for the number. For a
floating-point number the digits are laid out around the power of ten of the first one; whichever
layout is taken, the numeral is a decimal of the value of the shortest one.
-/

namespace Derivations

namespace Decimal

open Json.Numeral

variable {d : Decimal} {digits : List Char}

/-- The digits that are left out are zeros. -/
theorem exists_toDigits_eq (d : Decimal) :
    ∃ zeros, Nat.toDigits 10 d.significand = d.digits ++ List.replicate zeros '0' := by
  have split := List.takeWhile_append_dropWhile (p := fun c => decide (c = '0'))
    (l := (Nat.toDigits 10 d.significand).reverse)
  have zeros : ∀ c ∈ (Nat.toDigits 10 d.significand).reverse.takeWhile
      (fun c => decide (c = '0')), c = '0' :=
    fun c hc => of_decide_eq_true (List.all_eq_true.1 List.all_takeWhile c hc)
  rw [List.eq_replicate_of_mem zeros] at split
  have turned := congrArg List.reverse split
  rw [List.reverse_append, List.reverse_reverse, List.reverse_replicate] at turned
  exact ⟨_, turned.symm⟩

/-- The digits of a decimal and the zeros left out spell its significand. -/
theorem exists_digitsValue_eq (d : Decimal) :
    ∃ zeros, d.significand = digitsValue d.digits * 10 ^ zeros ∧
      (Nat.toDigits 10 d.significand).length = d.digits.length + zeros := by
  obtain ⟨zeros, digits⟩ := d.exists_toDigits_eq
  refine ⟨zeros, ?_, by rw [digits, List.length_append, List.length_replicate]⟩
  rw [← digitsValue_append_zeros, ← digits, digitsValue, Nat.ofDigitChars_ten_toDigits]

section Positive

variable (positive : d.significand ≠ 0)
include positive

theorem digits_ne_nil : d.digits ≠ [] := by
  intro nothing
  obtain ⟨zeros, value, -⟩ := d.exists_digitsValue_eq
  rw [nothing, digitsValue, Nat.ofDigitChars_nil, Nat.zero_mul] at value
  exact positive value

theorem isDigits_digits : IsDigits d.digits := by
  refine ⟨digits_ne_nil positive, fun c hc => (isDigits_toDigits d.significand).all c ?_⟩
  obtain ⟨zeros, digits⟩ := d.exists_toDigits_eq
  rw [digits]
  exact List.mem_append_left _ hc

theorem head?_digits_ne_zero : d.digits.head? ≠ some '0' := by
  intro zero
  obtain ⟨zeros, digits⟩ := d.exists_toDigits_eq
  obtain ⟨c, rest, split⟩ := List.exists_cons_of_ne_nil (digits_ne_nil positive)
  refine positive (eq_zero_of_head?_toDigits ?_)
  rw [digits]
  rw [split] at zero ⊢
  exact zero

end Positive

/-! ## The numeral of a decimal -/

/-- The numeral that digits are laid out as around a power of ten. -/
def positionalNumeral (digits : List Char) : Int → Json.Numeral
  | .ofNat lead =>
    ⟨false, digits.take (lead + 1) ++ List.replicate (lead + 1 - digits.length) '0',
      some (if digits.length ≤ lead + 1 then ['0'] else digits.drop (lead + 1)), none⟩
  | .negSucc gap => ⟨false, ['0'], some (List.replicate gap '0' ++ digits), none⟩

def scientificNumeral (digits : List Char) (lead : Int) : Json.Numeral :=
  ⟨false, digits.take 1, if digits.length ≤ 1 then none else some (digits.drop 1),
    some (decide (lead < 0), Nat.toDigits 10 lead.natAbs)⟩

theorem chars_positionalNumeral (digits : List Char) (lead : Int) :
    (positionalNumeral digits lead).chars = positional digits lead := by
  cases lead <;> simp [positionalNumeral, positional, Json.Numeral.chars, Json.Number.signChars,
    fractionChars, exponentChars]

theorem chars_scientificNumeral (digits : List Char) (lead : Int) :
    (scientificNumeral digits lead).chars = scientific digits lead := by
  by_cases short : digits.length ≤ 1 <;> simp [scientificNumeral, scientific, Json.Numeral.chars,
    Json.Number.signChars, fractionChars, exponentChars, short]

section Laid

variable (hd : IsDigits digits) (lead_ne : digits.head? ≠ some '0')
include hd lead_ne

theorem wellFormed_positionalNumeral (lead : Int) : (positionalNumeral digits lead).WellFormed := by
  cases lead with
  | ofNat lead =>
    refine ⟨⟨?_, fun c hc => ?_⟩, fun head => ?_, ?_, fun e he => nomatch he⟩
    · simp [positionalNumeral, hd.ne_nil]
    · rcases List.mem_append.1 hc with hc | hc
      · exact hd.all c (List.mem_of_mem_take hc)
      · rw [List.eq_of_mem_replicate hc]
        rfl
    · obtain ⟨c, rest, rfl⟩ := List.exists_cons_of_ne_nil hd.ne_nil
      exact absurd head lead_ne
    · rintro _ ⟨⟩
      split
      · exact isDigits_zero
      · rename_i long
        refine ⟨fun nothing => long (List.drop_eq_nil_iff.1 nothing), fun c hc => ?_⟩
        exact hd.all c (List.mem_of_mem_drop hc)
  | negSucc gap =>
    refine ⟨isDigits_zero, fun _ => rfl, ?_, fun e he => nomatch he⟩
    rintro _ ⟨⟩
    refine ⟨fun nothing => hd.ne_nil (List.append_eq_nil_iff.1 nothing).2, fun c hc => ?_⟩
    rcases List.mem_append.1 hc with hc | hc
    · rw [List.eq_of_mem_replicate hc]
      rfl
    · exact hd.all c hc

theorem wellFormed_scientificNumeral (lead : Int) : (scientificNumeral digits lead).WellFormed := by
  refine ⟨⟨?_, fun c hc => hd.all c (List.mem_of_mem_take hc)⟩, fun head => ?_, fun ds hds => ?_,
    fun e he => ?_⟩
  · simp [scientificNumeral, hd.ne_nil]
  · obtain ⟨c, rest, rfl⟩ := List.exists_cons_of_ne_nil hd.ne_nil
    exact absurd head lead_ne
  · rw [scientificNumeral] at hds
    dsimp only at hds
    split at hds
    · nomatch hds
    · rename_i long
      cases hds
      refine ⟨fun nothing => long (List.drop_eq_nil_iff.1 nothing), fun c hc => ?_⟩
      exact hd.all c (List.mem_of_mem_drop hc)
  · cases he
    exact isDigits_toDigits _

omit lead_ne

/-- Digits around a power of ten make up their number, with the point moved behind the last. -/
theorem decimal_positionalNumeral (lead : Int) :
    ∃ k : Nat, (positionalNumeral digits lead).decimal =
      ⟨digitsValue digits * 10 ^ k, lead - (digits.length - 1) - k⟩ := by
  have pos : 0 < digits.length := List.length_pos_iff.2 hd.ne_nil
  cases lead with
  | ofNat lead =>
    by_cases short : digits.length ≤ lead + 1
    · refine ⟨lead + 2 - digits.length, ?_⟩
      have whole : digits.take (lead + 1) ++ List.replicate (lead + 1 - digits.length) '0' ++
          ['0'] = digits ++ List.replicate (lead + 2 - digits.length) '0' := by
        rw [List.take_of_length_le short, List.append_assoc,
          show lead + 2 - digits.length = lead + 1 - digits.length + 1 by omega,
          List.replicate_succ']
      simp only [Json.Numeral.decimal, positionalNumeral, if_pos short, Option.getD_some, whole,
        digitsValue_append_zeros, Decimal.mk.injEq, true_and, List.length_singleton,
        Int.ofNat_eq_natCast]
      omega
    · refine ⟨0, ?_⟩
      have whole : digits.take (lead + 1) ++ List.replicate (lead + 1 - digits.length) '0' ++
          digits.drop (lead + 1) = digits := by
        rw [Nat.sub_eq_zero_of_le (by omega), List.replicate_zero, List.append_nil,
          List.take_append_drop]
      simp only [Json.Numeral.decimal, positionalNumeral, if_neg short, Option.getD_some, whole,
        Nat.pow_zero, Nat.mul_one, Decimal.mk.injEq, true_and, List.length_drop,
        Int.ofNat_eq_natCast]
      omega
  | negSucc gap =>
    refine ⟨0, ?_⟩
    have whole : digitsValue (['0'] ++ (List.replicate gap '0' ++ digits)) = digitsValue digits :=
      digitsValue_zeros_append digits (gap + 1)
    simp only [Json.Numeral.decimal, positionalNumeral, Option.getD_some, whole, Nat.pow_zero,
      Nat.mul_one, Decimal.mk.injEq, true_and, List.length_append, List.length_replicate]
    omega

theorem decimal_scientificNumeral (lead : Int) :
    (scientificNumeral digits lead).decimal =
      ⟨digitsValue digits, lead - (digits.length - 1)⟩ := by
  have exponent (n : Nat) : digitsValue (Nat.toDigits 10 n) = n := Nat.ofDigitChars_ten_toDigits
  have significand : digitsValue (digits.take 1 ++
      (if digits.length ≤ 1 then none else some (digits.drop 1)).getD []) = digitsValue digits := by
    by_cases short : digits.length ≤ 1
    · rw [if_pos short, Option.getD_none, List.append_nil, List.take_of_length_le short]
    · rw [if_neg short, Option.getD_some, List.take_append_drop]
  have places : ((if digits.length ≤ 1 then none else some (digits.drop 1)).getD []).length =
      digits.length - 1 := by
    by_cases short : digits.length ≤ 1
    · rw [if_pos short, Option.getD_none, List.length_nil]
      omega
    · rw [if_neg short, Option.getD_some, List.length_drop]
  have pos : 0 < digits.length := List.length_pos_iff.2 hd.ne_nil
  simp only [Json.Numeral.decimal, scientificNumeral, significand, places, Decimal.mk.injEq,
    true_and]
  by_cases negative : lead < 0
  · simp only [decide_eq_true negative, exponent]
    omega
  · simp only [decide_eq_false negative, exponent]
    omega

end Laid

/-- The numeral that a positive decimal is written as rounds as the decimal does. -/
theorem exists_numeral (layout : Layout) (positive : d.significand ≠ 0)
    (finite : Binary64.nearestTo d < Binary64.finiteCount) :
    ∃ n : Json.Numeral, n.WellFormed ∧ n.negative = false ∧ d.chars layout = n.chars ∧
      (n.fraction.isSome ∨ n.exponent.isSome) ∧
      Binary64.nearestTo n.decimal = Binary64.nearestTo d := by
  obtain ⟨zeros, significand, length⟩ := d.exists_digitsValue_eq
  have hd := isDigits_digits positive
  have lead_ne := head?_digits_ne_zero positive
  -- all are compared with the digits whose point is moved behind the last one
  let whole : Decimal := ⟨digitsValue d.digits, d.lead - (d.digits.length - 1)⟩
  have shape : d = ⟨whole.significand * 10 ^ zeros, whole.exponent - zeros⟩ := by
    have exponent : d.exponent = d.lead - (d.digits.length - 1) - zeros := by
      rw [lead, length]
      omega
    rw [← significand, ← exponent]
  have rounded : Binary64.nearestTo d = Binary64.nearestTo whole := by
    rw [shape] at finite ⊢
    exact Binary64.nearestTo_shift (.inr finite)
  by_cases positionally : layout.positionalFrom ≤ d.lead ∧ d.lead ≤ layout.positionalTo
  · obtain ⟨k, value⟩ := decimal_positionalNumeral hd d.lead
    refine ⟨positionalNumeral d.digits d.lead, wellFormed_positionalNumeral hd lead_ne _, ?_, ?_,
      ?_, ?_⟩
    · cases d.lead <;> rfl
    · rw [chars, if_pos positionally, chars_positionalNumeral]
    · cases d.lead <;> exact .inl rfl
    · rw [value, rounded]
      exact Binary64.nearestTo_shift (.inl (rounded ▸ finite))
  · refine ⟨scientificNumeral d.digits d.lead, wellFormed_scientificNumeral hd lead_ne _, rfl, ?_,
      .inr rfl, ?_⟩
    · rw [chars, if_neg positionally, chars_scientificNumeral]
    · rw [decimal_scientificNumeral hd, rounded]

end Decimal

/-! ## The numeral of a number -/

namespace Json

namespace Number

theorem exists_numeral_integer (value : Int)
    (inRange : -0x8000000000000000 ≤ value ∧ value < 0x10000000000000000) :
    ∃ n : Numeral, n.WellFormed ∧ (integer value inRange).chars = n.chars ∧
      n.number? = some (integer value inRange) := by
  have size : Numeral.digitsValue (Nat.toDigits 10 value.natAbs) = value.natAbs :=
    Nat.ofDigitChars_ten_toDigits
  refine ⟨⟨decide (value < 0), Nat.toDigits 10 value.natAbs, none, none⟩,
    ⟨Numeral.isDigits_toDigits _, fun head => ?_, (fun _ h => nomatch h), (fun _ h => nomatch h)⟩,
    by simp [chars, Numeral.chars, Numeral.fractionChars, Numeral.exponentChars], ?_⟩
  · rw [Numeral.eq_zero_of_head?_toDigits head]
    rfl
  · by_cases negative : value < 0
    · have bounds : 0 < value.natAbs ∧ value.natAbs ≤ 0x8000000000000000 := by omega
      have same : -(value.natAbs : Int) = value := by omega
      simp only [Numeral.number?, Numeral.integer?, size, decide_eq_true negative, if_true,
        dif_pos bounds, same]
      rfl
    · have bounds : value.natAbs < 0x10000000000000000 := by omega
      have same : (value.natAbs : Int) = value := by omega
      simp only [Numeral.number?, Numeral.integer?, size, decide_eq_false negative,
        Bool.false_eq_true, if_false, dif_pos bounds, same]
      rfl

/-- A numeral with a point or an exponent stands for a floating-point number. -/
theorem number?_eq_float {n : Numeral} {value : Binary64} (negative : n.negative = value.negative)
    (pointed : n.fraction.isSome ∨ n.exponent.isSome)
    (rounded : Binary64.nearestTo n.decimal = value.magnitude) :
    n.number? = some (float value) := by
  have integer : n.integer? = none := by
    obtain ⟨_, _, fraction, exponent⟩ := n
    cases fraction with
    | some digits => rfl
    | none =>
      cases exponent with
      | some e => rfl
      | none => simp at pointed
  rw [Numeral.number?, integer, negative, Binary64.ofDecimal_eq_some rounded]
  rfl

theorem exists_numeral_float (value : Binary64) :
    ∃ n : Numeral, n.WellFormed ∧ (float value).chars = n.chars ∧
      n.number? = some (float value) := by
  by_cases zero : value.magnitude = 0
  · refine ⟨⟨value.negative, ['0'], some ['0'], none⟩, ⟨Numeral.isDigits_zero, fun _ => rfl, ?_,
      (fun _ h => nomatch h)⟩, ?_, number?_eq_float rfl (.inl rfl) ?_⟩
    · rintro _ ⟨⟩
      exact Numeral.isDigits_zero
    · simp [chars, zero, Numeral.chars, Numeral.fractionChars, Numeral.exponentChars]
    · exact (Binary64.nearestTo_zero _).trans zero.symm
  · have rounded := value.nearestTo_shortest
    obtain ⟨n, wellFormed, unsigned, text, pointed, same⟩ := value.shortest.exists_numeral
      floatLayout (Binary64.significand_shortest_ne_zero zero) (rounded ▸ value.finite)
    refine ⟨{ n with negative := value.negative }, ⟨wellFormed.whole, wellFormed.lead,
      wellFormed.fraction, wellFormed.exponent⟩, ?_,
      number?_eq_float rfl pointed (same.trans rounded)⟩
    rw [chars, if_neg zero, text, Numeral.chars, Numeral.chars, unsigned]
    simp [signChars]

/-- The text of a number is that of a numeral that stands for it. -/
theorem exists_numeral (number : Number) :
    ∃ n : Numeral, n.WellFormed ∧ number.chars = n.chars ∧ n.number? = some number := by
  cases number with
  | integer value inRange => exact exists_numeral_integer value inRange
  | float value => exact exists_numeral_float value

/-- A number is scanned from its text, and read as it was. -/
theorem scan_chars (number : Number) {rest : List Char} (stops : Numeral.Stops rest) :
    ∃ n : Numeral, Numeral.scan (number.chars ++ rest) = .ok (n, rest) ∧
      n.number? = some number := by
  obtain ⟨n, wellFormed, text, value⟩ := number.exists_numeral
  exact ⟨n, text ▸ Numeral.scan_chars wellFormed stops, value⟩

end Number

end Json

end Derivations

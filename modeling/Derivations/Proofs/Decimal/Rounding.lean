import Mathlib.Algebra.Group.Nat.Defs
import Derivations.Decimal.Binary64

/-!
# Rounding looks at the value only

The nearest magnitude of a fraction does not depend on how the fraction is written, and that of an
exact number is its own. So two decimals of one value round alike, however many zeros one of them
has behind its significand.
-/

namespace Derivations

namespace Decimal

/-- The numerator of a decimal as a fraction of units. -/
def num (d : Decimal) : Nat := d.significand * 10 ^ d.exponent.toNat * 2 ^ Binary64.places

/-- The denominator of a decimal as a fraction of units. -/
def den (d : Decimal) : Nat := 10 ^ (-d.exponent).toNat

theorem den_pos (d : Decimal) : 0 < d.den := Nat.pow_pos (by decide)

/-- Moving the point of a decimal, with zeros put behind the significand, keeps its value. -/
theorem num_mul_den_shift (s k : Nat) (e : Int) :
    num ⟨s * 10 ^ k, e - k⟩ * den ⟨s, e⟩ = num ⟨s, e⟩ * den ⟨s * 10 ^ k, e - k⟩ := by
  have powers : 10 ^ k * 10 ^ (e - k).toNat * 10 ^ (-e).toNat =
      10 ^ e.toNat * 10 ^ (-(e - k)).toNat := by
    rw [← Nat.pow_add, ← Nat.pow_add, ← Nat.pow_add]
    congr 1
    omega
  simp only [num, den]
  generalize 2 ^ Binary64.places = unit
  calc s * 10 ^ k * 10 ^ (e - k).toNat * unit * 10 ^ (-e).toNat
      = s * unit * (10 ^ k * 10 ^ (e - k).toNat * 10 ^ (-e).toNat) := by ac_rfl
    _ = s * unit * (10 ^ e.toNat * 10 ^ (-(e - k)).toNat) := by rw [powers]
    _ = s * 10 ^ e.toNat * unit * 10 ^ (-(e - k)).toNat := by ac_rfl

end Decimal

namespace Binary64

/-! ## Fractions -/

theorem roundDiv_mul_right (n d : Nat) {c : Nat} (pos : 0 < c) :
    roundDiv (n * c) (d * c) = roundDiv n d := by
  have below (a b : Nat) : 2 * (a * c) < b * c ↔ 2 * a < b := by
    rw [← Nat.mul_assoc]
    exact Nat.mul_lt_mul_right pos
  have above (a b : Nat) : b * c < 2 * (a * c) ↔ b < 2 * a := by
    rw [← Nat.mul_assoc]
    exact Nat.mul_lt_mul_right pos
  simp only [roundDiv, Nat.mul_div_mul_right n d pos, Nat.mul_mod_mul_right, below, above]

theorem roundDiv_one (n : Nat) : roundDiv n 1 = n := by
  simp [roundDiv, Nat.mod_one]

theorem nearest_mul_right (n d : Nat) {c : Nat} (pos : 0 < c) :
    nearest (n * c) (d * c) = nearest n d := by
  simp only [nearest, Nat.mul_div_mul_right n d pos, Nat.mul_right_comm d c,
    roundDiv_mul_right _ _ pos]

/-- Fractions of one value have one nearest magnitude. -/
theorem nearest_congr {n d n' d' : Nat} (pos : 0 < d) (pos' : 0 < d') (h : n * d' = n' * d) :
    nearest n d = nearest n' d' := by
  rw [← nearest_mul_right n d pos', h, Nat.mul_comm d d', nearest_mul_right n' d' pos]

/-- An exact number is nearest to itself. -/
theorem nearest_units (x : Binary64) : nearest x.units 1 = x.magnitude := by
  obtain ⟨negative, magnitude, finite⟩ := x
  simp only [units, nearest, Nat.div_one, Nat.pow_eq]
  by_cases small : magnitude < 2 ^ 53
  · have least : scale magnitude = 0 := by
      simp only [scale, span]
      omega
    have short : magnitude.log2 - 52 = 0 := by
      by_cases zero : magnitude = 0
      · subst zero
        rfl
      · have := (Nat.log2_lt zero).2 small
        omega
    rw [least, Nat.zero_mul, Nat.sub_zero, Nat.pow_zero, Nat.mul_one, short]
    simp [roundDiv_one]
  · obtain ⟨k, scaled⟩ : ∃ k, scale magnitude = k := ⟨_, rfl⟩
    obtain ⟨m, split⟩ : ∃ m, magnitude - k * span = m := ⟨_, rfl⟩
    -- the significand has exactly 53 bits
    have whole : magnitude = k * span + m ∧ 2 ^ 52 ≤ m ∧ m < 2 ^ 53 := by
      simp only [scale, span] at scaled split ⊢
      omega
    have pos : 0 < 2 ^ k := Nat.two_pow_pos k
    have length : (m * 2 ^ k).log2 = 52 + k := by
      have ne : m * 2 ^ k ≠ 0 := Nat.mul_ne_zero (by omega) (Nat.ne_of_gt pos)
      have lower : 2 ^ (52 + k) ≤ m * 2 ^ k := by
        rw [Nat.pow_add]
        exact Nat.mul_le_mul_right _ whole.2.1
      have upper : m * 2 ^ k < 2 ^ (52 + k + 1) := by
        rw [show 52 + k + 1 = 53 + k by omega, Nat.pow_add]
        exact Nat.mul_lt_mul_of_pos_right whole.2.2 pos
      have := (Nat.le_log2 ne).2 lower
      have := (Nat.log2_lt ne).2 upper
      omega
    rw [scaled, split, length, Nat.add_sub_cancel_left, roundDiv_mul_right m 1 pos, roundDiv_one,
      ← whole.1]

/-! ## Decimals -/

theorem finiteCount_le_nearest {n d bits : Nat} (pos : 0 < d) (large : 2100 ≤ bits)
    (h : 2 ^ bits * d ≤ n) : finiteCount ≤ nearest n d := by
  have quotient : 2 ^ bits ≤ n / d := (Nat.le_div_iff_mul_le pos).2 h
  have ne : n / d ≠ 0 := Nat.ne_of_gt (Nat.lt_of_lt_of_le (Nat.two_pow_pos _) quotient)
  have length : bits ≤ (n / d).log2 := (Nat.le_log2 ne).2 quotient
  simp only [nearest, finiteCount, span]
  omega

theorem nearest_eq_zero {n d : Nat} (h : 2 * n < d) : nearest n d = 0 := by
  have quotient : n / d = 0 := Nat.div_eq_of_lt (by omega)
  have rest : n % d = n := Nat.mod_eq_of_lt (by omega)
  simp [nearest, roundDiv, quotient, rest, h]

/-- A huge decimal is beyond all finite numbers. -/
theorem finiteCount_le_nearest_of_huge {s e : Nat} (ne : s ≠ 0) (huge : maxExponent < e) :
    finiteCount ≤ nearest (s * 10 ^ e * 2 ^ places) 1 := by
  have large : 2100 ≤ 3 * e + places := by
    simp only [maxExponent, places] at huge ⊢
    omega
  refine finiteCount_le_nearest (by decide) large ?_
  have power : 2 ^ (3 * e) ≤ 10 ^ e := by
    rw [Nat.pow_mul]
    exact Nat.pow_le_pow_left (by decide) e
  have significand : 10 ^ e ≤ s * 10 ^ e := Nat.le_mul_of_pos_left _ (Nat.pos_of_ne_zero ne)
  rw [Nat.mul_one, Nat.pow_add]
  exact Nat.mul_le_mul_right _ (Nat.le_trans power significand)

/-- A decimal far below the least positive number is nearest to zero. -/
theorem nearest_eq_zero_of_tiny {s e : Nat} (tiny : s.log2 + places + 26 < 3 * e) :
    nearest (s * 2 ^ places) (10 ^ (e + 1)) = 0 := by
  refine nearest_eq_zero ?_
  calc 2 * (s * 2 ^ places) < 2 * (2 ^ (s.log2 + 1) * 2 ^ places) := by
        refine Nat.mul_lt_mul_of_pos_left ?_ (by decide)
        exact Nat.mul_lt_mul_of_pos_right Nat.lt_log2_self (Nat.two_pow_pos _)
    _ = 2 ^ (s.log2 + 1 + places + 1) := by rw [← Nat.pow_add, Nat.pow_succ, Nat.mul_comm]
    _ ≤ 2 ^ (3 * e) := Nat.pow_le_pow_right (by decide) (by omega)
    _ = 8 ^ e := by rw [Nat.pow_mul]
    _ ≤ 10 ^ e := Nat.pow_le_pow_left (by decide) e
    _ ≤ 10 ^ (e + 1) := Nat.pow_le_pow_right (by decide) (Nat.le_succ e)

/-- Up to the finite numbers, the shortcuts of the rounding make no difference. -/
theorem nearestTo_eq {d : Decimal}
    (h : nearestTo d < finiteCount ∨ nearest d.num d.den < finiteCount) :
    nearestTo d = nearest d.num d.den := by
  obtain ⟨s, exponent⟩ := d
  cases exponent with
  | ofNat e =>
    have fraction : nearest (Decimal.num ⟨s, .ofNat e⟩) (Decimal.den ⟨s, .ofNat e⟩) =
        nearest (s * 10 ^ e * 2 ^ places) 1 := by
      simp [Decimal.num, Decimal.den]
    simp only [nearestTo, Nat.pow_eq, fraction] at h ⊢
    by_cases zero : s = 0
    · subst zero
      rw [if_pos rfl, Nat.zero_mul, Nat.zero_mul, nearest_eq_zero (by decide)]
    · rw [if_neg zero] at h ⊢
      by_cases huge : maxExponent < e
      · rw [if_pos huge] at h
        have := finiteCount_le_nearest_of_huge zero huge
        omega
      · rw [if_neg huge]
  | negSucc e =>
    have fraction : nearest (Decimal.num ⟨s, .negSucc e⟩) (Decimal.den ⟨s, .negSucc e⟩) =
        nearest (s * 2 ^ places) (10 ^ (e + 1)) := by
      simp [Decimal.num, Decimal.den]
    simp only [nearestTo, Nat.pow_eq, fraction]
    by_cases tiny : s.log2 + places + 26 < 3 * e
    · rw [if_pos tiny, nearest_eq_zero_of_tiny tiny]
    · rw [if_neg tiny]

/-- Zeros behind the significand make no difference. -/
theorem nearestTo_shift {s k : Nat} {e : Int}
    (h : nearestTo ⟨s, e⟩ < finiteCount ∨ nearestTo ⟨s * 10 ^ k, e - k⟩ < finiteCount) :
    nearestTo ⟨s * 10 ^ k, e - k⟩ = nearestTo ⟨s, e⟩ := by
  have same := nearest_congr (Decimal.den_pos _) (Decimal.den_pos _)
    (Decimal.num_mul_den_shift s k e)
  rcases h with finite | finite
  · have plain := nearestTo_eq (.inl finite)
    rw [plain, ← same]
    exact nearestTo_eq (.inr (by rw [same, ← plain]; exact finite))
  · have shifted := nearestTo_eq (.inl finite)
    rw [shifted, same]
    exact (nearestTo_eq (.inr (by rw [← same, ← shifted]; exact finite))).symm

end Binary64

end Derivations

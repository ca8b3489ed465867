import Derivations.Decimal.Shortest
import Derivations.Proofs.Decimal.Rounding

/-!
# The shortest decimal reads back

Whatever grid the search for the shortest decimal stops at, the decimal it yields rounds to the
number: each grid is left only with a decimal that was tested, and the last one holds the exact
value.
-/

namespace Derivations

namespace Binary64

theorem nearestTo_of_readsAs {x : Binary64} {d : Decimal} (h : x.readsAs d = true) :
    nearestTo d = x.magnitude := beq_iff_eq.1 h

/-- The exact decimal rounds to the number. -/
theorem nearestTo_exact (x : Binary64) : nearestTo x.exact = x.magnitude := by
  have whole : x.exact.num * 1 = x.units * x.exact.den := by
    have split : 10 ^ places = 5 ^ places * 2 ^ places := by
      rw [← Nat.mul_pow]
    have den : x.exact.den = 10 ^ places := by
      rw [Decimal.den, exact, Int.neg_neg, Int.toNat_natCast]
    have num : x.exact.num = x.units * 5 ^ places * 2 ^ places := by
      rw [Decimal.num, exact, Int.toNat_neg_natCast, Nat.pow_zero, Nat.mul_one, Nat.pow_eq]
    rw [den, num, split, Nat.mul_one, Nat.mul_assoc]
  have value : nearest x.exact.num x.exact.den = x.magnitude := by
    rw [nearest_congr (Decimal.den_pos _) Nat.one_pos whole, nearest_units]
  rw [nearestTo_eq (.inr (value ▸ x.finite)), value]

theorem nearestTo_of_onGrid? {x : Binary64} {dropped : Nat} {d : Decimal}
    (h : x.onGrid? dropped = some d) : nearestTo d = x.magnitude := by
  simp only [onGrid?] at h
  split at h
  · rename_i below above
    rw [Option.some.injEq] at h
    subst h
    split
    · exact nearestTo_of_readsAs below
    · exact nearestTo_of_readsAs above
  · rename_i below above
    rw [← Option.some.inj h, nearestTo_of_readsAs below]
  · rename_i below above
    rw [← Option.some.inj h, nearestTo_of_readsAs above]
  · nomatch h

theorem nearestTo_shortestFrom (x : Binary64) (dropped : Nat) :
    nearestTo (x.shortestFrom dropped) = x.magnitude := by
  induction dropped with
  | zero => exact nearestTo_exact x
  | succ dropped ih =>
    rw [shortestFrom]
    cases grid : x.onGrid? (dropped + 1) with
    | none => exact ih
    | some d => exact nearestTo_of_onGrid? grid

/-- The shortest decimal rounds to the number. -/
theorem nearestTo_shortest (x : Binary64) : nearestTo x.shortest = x.magnitude :=
  nearestTo_shortestFrom x _

theorem nearestTo_zero (exponent : Int) : nearestTo ⟨0, exponent⟩ = 0 := by
  have num : Decimal.num ⟨0, exponent⟩ = 0 := by
    rw [Decimal.num, Nat.zero_mul, Nat.zero_mul]
  have least : nearest (Decimal.num ⟨0, exponent⟩) (Decimal.den ⟨0, exponent⟩) = 0 := by
    rw [num]
    exact nearest_eq_zero (Decimal.den_pos _)
  have finite : nearest (Decimal.num ⟨0, exponent⟩) (Decimal.den ⟨0, exponent⟩) < finiteCount := by
    rw [least]
    decide
  rw [nearestTo_eq (.inr finite), least]

theorem significand_shortest_ne_zero {x : Binary64} (h : x.magnitude ≠ 0) :
    x.shortest.significand ≠ 0 := by
  have value := nearestTo_shortest x
  generalize x.shortest = d at value
  obtain ⟨significand, exponent⟩ := d
  rintro rfl
  rw [nearestTo_zero] at value
  exact h value.symm

theorem ofDecimal_eq_some {x : Binary64} {d : Decimal} (h : nearestTo d = x.magnitude) :
    ofDecimal x.negative d = some x := by
  have finite : nearestTo d < finiteCount := h ▸ x.finite
  obtain ⟨negative, magnitude, within⟩ := x
  dsimp only at h
  subst h
  rw [ofDecimal, dif_pos finite]

end Binary64

end Derivations

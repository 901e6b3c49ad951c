import RecordStore.Double.Shortest
import RecordStore.Proofs.Double.Monotone

/-!
# The decimals of doubles

A decimal that is tried for a double has at most seventeen digits and is no larger than the numbers
that are rounded to the double (`Double.fits_nearestAt?`). Zeros that are dropped change neither
(`Decimal.Fits.stripZeros`), and so the shortest decimal has the same properties
(`Double.fits_shortest`).
-/

namespace RecordStore

/-- The powers of ten that two numbers are multiplied with matter for their order only as far as they
differ. -/
theorem mul_pow_le_mul_pow_iff {a b p q r s : Nat} (h : r + q = s + p) :
    a * 10 ^ r ≤ b * 10 ^ s ↔ a * 10 ^ p ≤ b * 10 ^ q := by
  have pos : ∀ n : Nat, 0 < 10 ^ n := fun n => Nat.pow_pos (by decide)
  have left : a * 10 ^ r * 10 ^ q = a * 10 ^ p * 10 ^ s := by
    rw [Nat.mul_assoc, ← Nat.pow_add, h, Nat.add_comm, Nat.pow_add, ← Nat.mul_assoc]
  have right : b * 10 ^ s * 10 ^ q = b * 10 ^ q * 10 ^ s := Nat.mul_right_comm _ _ _
  rw [← Nat.mul_le_mul_right_iff (pos q), left, right, Nat.mul_le_mul_right_iff (pos s)]

/-! ## Decimals -/

namespace Decimal

/-- Whether a decimal is positive, has seventeen digits up to a power of ten, and is at most as large
as some quarters of units. -/
structure Fits (d : Decimal) (quarters : Nat) : Prop where
  positive : 0 < d.digits
  few : d.digits ≤ 10 ^ 17
  least : -340 ≤ d.exponent
  atMost : 4 * (d.digits * Double.one) * 10 ^ d.exponent.toNat ≤
    quarters * 10 ^ (-d.exponent).toNat

theorem Fits.stripZeros {quarters : Nat} (fuel : Nat) {d : Decimal} (h : d.Fits quarters) :
    (stripZeros fuel d).Fits quarters := by
  induction fuel generalizing d with
  | zero => exact h
  | succ fuel ih =>
    rw [Decimal.stripZeros]
    by_cases hzero : d.digits % 10 = 0
    · rw [if_pos hzero]
      have positive := h.positive
      have few := h.few
      have least := h.least
      refine ih ⟨?_, ?_, ?_, ?_⟩
      · show 0 < d.digits / 10
        omega
      · show d.digits / 10 ≤ 10 ^ 17
        omega
      · show -340 ≤ d.exponent + 1
        omega
      · have digits : d.digits = d.digits / 10 * 10 := by omega
        have shifted : 4 * (d.digits / 10 * Double.one) * 10 ^ (d.exponent.toNat + 1) =
            4 * (d.digits * Double.one) * 10 ^ d.exponent.toNat := by
          conv => rhs; rw [digits]
          rw [Nat.pow_succ, Nat.mul_right_comm (d.digits / 10) 10, ← Nat.mul_assoc 4 _ 10,
            Nat.mul_right_comm _ 10, Nat.mul_assoc _ _ 10]
        have exponents : (d.exponent + 1).toNat + (-d.exponent).toNat =
            (-(d.exponent + 1)).toNat + (d.exponent.toNat + 1) := by omega
        rw [mul_pow_le_mul_pow_iff exponents, shifted]
        exact h.atMost
    · rw [if_neg hzero]
      exact h

end Decimal

/-! ## The leading digit -/

namespace Double

theorem lt_pow_decimalLength (n : Nat) : n < 10 ^ decimalLength n := by
  rw [decimalLength]
  by_cases hn : n = 0
  · rw [if_pos hn, hn]
    decide
  · rw [if_neg hn]
    exact (Nat.length_toDigits_le_iff (by decide) Nat.length_toDigits_pos).1 (Nat.le_refl _)

theorem pow_decimalLength_le {n : Nat} (hn : n ≠ 0) :
    0 < decimalLength n ∧ 10 ^ (decimalLength n - 1) ≤ n := by
  rw [decimalLength, if_neg hn]
  have pos : 0 < (Nat.toDigits 10 n).length := Nat.length_toDigits_pos
  refine ⟨pos, ?_⟩
  rcases Nat.eq_zero_or_pos ((Nat.toDigits 10 n).length - 1) with hone | hmore
  · rw [hone]
    exact Nat.pos_of_ne_zero hn
  · have long : ¬ (Nat.toDigits 10 n).length ≤ (Nat.toDigits 10 n).length - 1 := by omega
    rw [Nat.length_toDigits_le_iff (by decide) hmore] at long
    exact Nat.not_lt.1 long

theorem neg_le_leadingPower (units : Nat) : -324 ≤ leadingPower units := by
  have longest : decimalLength ((one - 1) / units) ≤ 324 := by
    have below : one - 1 < 10 ^ 324 := by decide +kernel
    rw [decimalLength]
    split
    · exact Nat.zero_le _
    · exact (Nat.length_toDigits_le_iff (by decide) (by decide)).2
        (Nat.lt_of_le_of_lt (Nat.div_le_self _ _) below)
  rw [leadingPower]
  split <;> omega

variable {units : Nat} (hunits : units ≠ 0)

include hunits

/-- A positive double is below the power of ten behind the one of its leading digit. -/
theorem lt_leadingPower : units * 10 ^ (-(leadingPower units + 1)).toNat <
    one * 10 ^ (leadingPower units + 1).toNat := by
  rw [leadingPower]
  have one_pos := one_pos
  by_cases h : one ≤ units
  · have below := lt_pow_decimalLength (units / one)
    rw [Nat.div_lt_iff_lt_mul one_pos, Nat.mul_comm] at below
    rw [if_pos h]
    have power : ((decimalLength (units / one) : Int) - 1 + 1).toNat = decimalLength (units / one) := by
      omega
    have none : (-((decimalLength (units / one) : Int) - 1 + 1)).toNat = 0 := by omega
    rwa [power, none, Nat.pow_zero, Nat.mul_one]
  · have quotient : (one - 1) / units ≠ 0 := by
      have pos : 0 < (one - 1) / units := Nat.div_pos (by omega) (by omega)
      omega
    obtain ⟨pos, least⟩ := pow_decimalLength_le quotient
    rw [Nat.le_div_iff_mul_le (by omega)] at least
    rw [if_neg h]
    have power : (-(-(decimalLength ((one - 1) / units) : Int) + 1)).toNat =
        decimalLength ((one - 1) / units) - 1 := by omega
    have none : (-(decimalLength ((one - 1) / units) : Int) + 1).toNat = 0 := by omega
    rw [power, none, Nat.pow_zero, Nat.mul_one, Nat.mul_comm]
    omega

/-! ## Candidates -/

/-- What is rounded to a double is positive, and no larger than the end of its interval. -/
theorem bounds_of_roundsTo {candidate scale : Nat} (hscale : 0 < scale)
    (h : roundsTo units candidate scale = true) :
    0 < candidate ∧ 4 * candidate ≤ (roundingInterval units).2 * scale := by
  have step_le : spacing units ≤ units := by
    calc spacing units ≤ 2 ^ units.log2 := Nat.pow_le_pow_right (by decide) (Nat.sub_le _ _)
      _ ≤ units := Nat.log2_self_le hunits
  have low_pos : 0 < (roundingInterval units).1 := by
    simp only [roundingInterval]
    split <;> omega
  have low_scale := Nat.mul_pos low_pos hscale
  simp only [roundsTo] at h
  split at h <;> simp only [Bool.and_eq_true, decide_eq_true_eq] at h <;> omega

/-- A decimal that is tried is one of the two around the double, and is rounded to the double. -/
theorem bounds_of_nearestAt? {place : Int} {d : Decimal} (h : nearestAt? units place = some d) :
    let scale := 10 ^ (-place).toNat
    let grid := one * 10 ^ place.toNat
    d.exponent = place ∧ 0 < d.digits ∧ d.digits ≤ units * scale / grid + 1 ∧
      4 * (d.digits * grid) ≤ (roundingInterval units).2 * scale := by
  intro scale grid
  have scale_pos : 0 < scale := Nat.pow_pos (by decide)
  have bounds : ∀ m, roundsTo units (m * grid) scale = true →
      0 < m ∧ 4 * (m * grid) ≤ (roundingInterval units).2 * scale := fun m hm =>
    (bounds_of_roundsTo hunits scale_pos hm).imp_left Nat.pos_of_mul_pos_right
  rw [nearestAt?] at h
  split at h
  · next low high =>
    cases h
    have least := div_le_roundDiv (units * scale) grid
    have greatest := roundDiv_le (units * scale) grid
    refine ⟨rfl, Nat.lt_of_lt_of_le (bounds _ low).1 least, greatest, ?_⟩
    exact Nat.le_trans (Nat.mul_le_mul_left 4 (Nat.mul_le_mul_right grid greatest)) (bounds _ high).2
  · next low _ =>
    cases h
    exact ⟨rfl, (bounds _ low).1, Nat.le_succ _, (bounds _ low).2⟩
  · next _ high =>
    cases h
    exact ⟨rfl, (bounds _ high).1, Nat.le_refl _, (bounds _ high).2⟩
  · cases h

/-- Up to the seventeenth digit of a double the decimals that are tried have so many digits. -/
theorem fits_nearestAt? {n : Nat} (hn : n < 17) {d : Decimal}
    (h : nearestAt? units (leadingPower units - n) = some d) :
    d.Fits (roundingInterval units).2 := by
  obtain ⟨place, positive, near, atMost⟩ := bounds_of_nearestAt? hunits h
  have grid_pos : 0 < one * 10 ^ (leadingPower units - n).toNat :=
    Nat.mul_pos one_pos (Nat.pow_pos (by decide))
  have few := lt_leadingPower hunits
  have exponents : (leadingPower units + 1).toNat + (-(leadingPower units - n)).toNat =
      (-(leadingPower units + 1)).toNat + ((leadingPower units - n).toNat + (n + 1)) := by omega
  rw [← Nat.not_le, mul_pow_le_mul_pow_iff exponents, Nat.not_le, Nat.pow_add, ← Nat.mul_assoc,
    Nat.mul_comm _ (10 ^ (n + 1)), ← Nat.div_lt_iff_lt_mul grid_pos] at few
  have least := neg_le_leadingPower units
  refine ⟨positive, ?_, by omega, ?_⟩
  · calc d.digits ≤ 10 ^ (n + 1) := Nat.le_trans near few
      _ ≤ 10 ^ 17 := Nat.pow_le_pow_right (by decide) hn
  · rw [place, Nat.mul_assoc 4, Nat.mul_assoc d.digits]
    exact atMost

/-- The shortest decimal of a double has the properties of the decimals that are tried, unless there
is none among them. -/
theorem fits_shortest :
    (shortest units).Fits (roundingInterval units).2 ∨ shortest units = ⟨0, 17⟩ := by
  rw [shortest]
  cases h : (List.range 17).findSome? fun (n : Nat) => nearestAt? units (leadingPower units - n) with
  | none => exact .inr (by decide)
  | some d =>
    obtain ⟨n, hn, hd⟩ := List.exists_of_findSome?_eq_some h
    exact .inl ((fits_nearestAt? hunits (List.mem_range.1 hn) hd).stripZeros 17)

end Double

end RecordStore

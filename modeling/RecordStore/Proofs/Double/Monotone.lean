import RecordStore.Proofs.Double.Exact

/-!
# Rounding keeps the order

A larger integer is no smaller double (`Double.signed_ofInt_mono`). Two integers far from each other
can become the same double, so that nothing more can be said.
-/

namespace RecordStore

namespace Double

variable {a b den : Nat}

/-! ## Quotients -/

theorem div_le_roundDiv (num den : Nat) : num / den ≤ roundDiv num den := by
  simp only [roundDiv]
  split <;> omega

theorem roundDiv_le (num den : Nat) : roundDiv num den ≤ num / den + 1 := by
  simp only [roundDiv]
  split <;> omega

theorem roundDiv_mono (h : a ≤ b) : roundDiv a den ≤ roundDiv b den := by
  have quotients : a / den ≤ b / den := Nat.div_le_div_right h
  rcases Nat.eq_or_lt_of_le quotients with same | less
  · -- With one quotient the larger remainder rounds up where the smaller one does.
    have ha := Nat.div_add_mod a den
    have hb := Nat.div_add_mod b den
    rw [same] at ha
    have remainders : a % den ≤ b % den := by omega
    simp only [roundDiv, same]
    split <;> split <;> omega
  · calc roundDiv a den ≤ a / den + 1 := roundDiv_le a den
      _ ≤ b / den := less
      _ ≤ roundDiv b den := div_le_roundDiv b den

/-! ## Magnitudes -/

theorem spacing_dvd_two_pow {units k : Nat} (h : units.log2 ≤ k) : spacing units ∣ 2 ^ k :=
  Nat.pow_dvd_pow 2 (by omega)

theorem log2_mono (h : a ≤ b) : a.log2 ≤ b.log2 := by
  rcases Nat.eq_zero_or_pos a with rfl | ha
  · rw [Nat.log2_zero]
    exact Nat.zero_le _
  · rw [Nat.le_log2 (by omega)]
    exact Nat.le_trans (Nat.log2_self_le (by omega)) h

section

variable (hden : 0 < den)

include hden

/-- A multiple of the distance between doubles is rounded to itself. -/
theorem roundDiv_mul_spacing {units : Nat} (q : Nat) :
    roundDiv (spacing units * q * den) (den * spacing units) * spacing units = spacing units * q := by
  have product : spacing units * q * den = den * spacing units * q := by
    rw [Nat.mul_comm, Nat.mul_assoc]
  rw [product, roundDiv_mul_left (Nat.mul_pos hden (spacing_pos units)), Nat.mul_comm]

/-- A power of two between two magnitudes is between the doubles that they are rounded to. -/
theorem round_le_two_pow {num k : Nat} (hlog : (num / den).log2 ≤ k) (h : num ≤ 2 ^ k * den) :
    round num den ≤ 2 ^ k := by
  obtain ⟨q, hq⟩ := spacing_dvd_two_pow hlog
  calc round num den ≤ roundDiv (2 ^ k * den) (den * spacing (num / den)) * spacing (num / den) :=
        Nat.mul_le_mul_right _ (roundDiv_mono h)
    _ = 2 ^ k := by rw [hq, roundDiv_mul_spacing hden]

theorem two_pow_le_round {num : Nat} (h : num / den ≠ 0) :
    2 ^ (num / den).log2 ≤ round num den := by
  obtain ⟨q, hq⟩ := spacing_dvd_two_pow (Nat.le_refl (num / den).log2)
  have below : 2 ^ (num / den).log2 * den ≤ num :=
    (Nat.le_div_iff_mul_le hden).1 (Nat.log2_self_le h)
  calc 2 ^ (num / den).log2 = roundDiv (2 ^ (num / den).log2 * den)
        (den * spacing (num / den)) * spacing (num / den) := by
          rw [hq, roundDiv_mul_spacing hden]
    _ ≤ round num den := Nat.mul_le_mul_right _ (roundDiv_mono below)

theorem round_mono (h : a ≤ b) : round a den ≤ round b den := by
  have quotients : a / den ≤ b / den := Nat.div_le_div_right h
  rcases Nat.eq_or_lt_of_le (log2_mono quotients) with same | less
  · rw [round, round, spacing, spacing, same]
    exact Nat.mul_le_mul_right _ (roundDiv_mono h)
  · have positive : b / den ≠ 0 := by
      intro hzero
      rw [hzero, Nat.log2_zero] at less
      exact Nat.not_lt_zero _ less
    have below : a / den < 2 ^ (b / den).log2 := Nat.lt_of_lt_of_le Nat.lt_log2_self
      (Nat.pow_le_pow_right (by decide) less)
    exact Nat.le_trans
      (round_le_two_pow hden (Nat.le_of_lt less) (Nat.le_of_lt ((Nat.div_lt_iff_lt_mul hden).1 below)))
      (two_pow_le_round hden positive)

end

/-! ## Integers -/

theorem signed_ofInt_mono {m n : Int} (h : m ≤ n) : (ofInt m).signed ≤ (ofInt n).signed := by
  simp only [signed, ofInt, decide_eq_true_eq]
  by_cases hm : m < 0
  · rw [if_pos hm]
    by_cases hn : n < 0
    · rw [if_pos hn]
      have magnitudes : n.natAbs * one ≤ m.natAbs * one := Nat.mul_le_mul_right _ (by omega)
      have rounded := round_mono Nat.one_pos magnitudes
      omega
    · rw [if_neg hn]
      omega
  · rw [if_neg hm, if_neg (by omega)]
    have magnitudes : m.natAbs * one ≤ n.natAbs * one := Nat.mul_le_mul_right _ (by omega)
    have rounded := round_mono Nat.one_pos magnitudes
    omega

/-- A larger integer is at least a smaller one also as a double. -/
theorem compare_ofInt_ne_lt {m n : Int} (h : m ≤ n) : (ofInt n).compare (ofInt m) ≠ .lt := by
  rw [Double.compare, Ne, Int.compare_eq_lt]
  exact Int.not_lt.2 (signed_ofInt_mono h)

end Double

end RecordStore

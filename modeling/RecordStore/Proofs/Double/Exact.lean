import RecordStore.Number

/-!
# Integers that are doubles

Rounding keeps a number of units that is a multiple of the distance between the doubles around it
(`Double.round_of_spacing_dvd`). The integers up to `2 ^ 53` are such numbers, so that as doubles
they have the order and the equality of integers (`Double.signed_ofInt`).
-/

namespace RecordStore

namespace Double

/-! ## Rounding what needs none -/

theorem roundDiv_mul_left {den : Nat} (hden : 0 < den) (n : Nat) : roundDiv (den * n) den = n := by
  have quotient : den * n / den = n := Nat.mul_div_cancel_left n hden
  have remainder : 2 * (den * n % den) < den := by
    rw [Nat.mul_mod_right]
    omega
  simp only [roundDiv, quotient, if_pos (Or.inl remainder)]

theorem spacing_pos (units : Nat) : 0 < spacing units := Nat.two_pow_pos _

theorem round_of_spacing_dvd {units : Nat} (h : spacing units ∣ units) : round units 1 = units := by
  obtain ⟨n, hn⟩ := h
  have rounded : roundDiv units (spacing units) = n := by
    have scaled := roundDiv_mul_left (spacing_pos units) n
    rwa [← hn] at scaled
  simp only [round, Nat.div_one, Nat.one_mul, rounded]
  rw [Nat.mul_comm]
  exact hn.symm

/-! ## Integers -/

theorem log2_mul_two_pow {n : Nat} (h : n ≠ 0) (k : Nat) : (n * 2 ^ k).log2 = n.log2 + k := by
  have low : 2 ^ n.log2 ≤ n := Nat.log2_self_le h
  have high : n < 2 ^ (n.log2 + 1) := Nat.lt_log2_self
  rw [Nat.log2_eq_iff (Nat.mul_ne_zero h (Nat.ne_of_gt (Nat.two_pow_pos k)))]
  constructor
  · rw [Nat.pow_add]
    exact Nat.mul_le_mul_right _ low
  · rw [Nat.add_right_comm, Nat.pow_add]
    exact Nat.mul_lt_mul_of_pos_right high (Nat.two_pow_pos k)

/-- Below `2 ^ 53` the distance between doubles divides the unit, and at `2 ^ 53` it is two
units. -/
theorem spacing_dvd_mul_two_pow {n : Nat} (h : n ≤ 2 ^ 53) (k : Nat) :
    spacing (n * 2 ^ k) ∣ n * 2 ^ k := by
  rcases Nat.eq_zero_or_pos n with rfl | pos
  · rw [Nat.zero_mul]
    exact Nat.dvd_zero _
  rw [spacing, log2_mul_two_pow (by omega)]
  rcases Nat.eq_or_lt_of_le h with rfl | small
  · rw [← Nat.pow_add, Nat.log2_two_pow]
    exact Nat.pow_dvd_pow 2 (by omega)
  · have bits : n.log2 < 53 := (Nat.log2_lt (by omega)).2 small
    have power : 2 ^ (n.log2 + k - 52) ∣ 2 ^ k := Nat.pow_dvd_pow 2 (by omega)
    exact Nat.dvd_mul_left_of_dvd power n

theorem exists_one_eq_two_pow : ∃ k, one = 2 ^ k := by
  unfold one
  exact ⟨_, rfl⟩

theorem one_pos : 0 < one := by
  obtain ⟨k, hk⟩ := exists_one_eq_two_pow
  rw [hk]
  exact Nat.two_pow_pos k

theorem spacing_dvd_mul_one {n : Nat} (h : n ≤ 2 ^ 53) : spacing (n * one) ∣ n * one := by
  obtain ⟨k, hk⟩ := exists_one_eq_two_pow
  rw [hk]
  exact spacing_dvd_mul_two_pow h k

theorem ofInt_eq {n : Int} (h : n.natAbs ≤ 2 ^ 53) :
    ofInt n = ⟨decide (n < 0), n.natAbs * one⟩ := by
  rw [ofInt, round_of_spacing_dvd (spacing_dvd_mul_one h)]

theorem signed_mk_mul_one (negative : Bool) (n : Nat) :
    (⟨negative, n * one⟩ : Double).signed = (if negative then -(n : Int) else n) * one := by
  cases negative with
  | false => simp [signed]
  | true => simp only [signed, if_true, Int.natCast_mul, Int.neg_mul]

theorem signed_ofInt {n : Int} (h : n.natAbs ≤ 2 ^ 53) : (ofInt n).signed = n * one := by
  rw [ofInt_eq h, signed_mk_mul_one]
  congr 1
  by_cases hn : n < 0
  · simp only [hn, decide_true, if_true]
    omega
  · simp only [hn, decide_false, Bool.false_eq_true, if_false]
    omega

theorem mul_one_inj {m n : Int} : m * one = n * one ↔ m = n := by
  have pos : (one : Int) ≠ 0 := by
    have := one_pos
    omega
  exact Int.mul_eq_mul_right_iff pos

end Double

end RecordStore

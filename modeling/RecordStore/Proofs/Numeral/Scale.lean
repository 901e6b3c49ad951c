import RecordStore.Numeral
import RecordStore.Proofs.Double.Decimal

/-!
# Scaling without overflow

A significand that 64 bits hold can be divided by any power of ten (`Numeral.isSome_scale?_of_neg`). It
can be multiplied by one as long as the product is well below the limit of the doubles: the greatest
significand for each power can, and the others are smaller (`Numeral.isSome_scale?`).
-/

namespace RecordStore

namespace Double

theorem exists_limit_eq_two_pow : ∃ k, k = 2098 ∧ limit = 2 ^ k := by
  unfold limit
  exact ⟨2098, rfl, rfl⟩

theorem pow_lt_limit {k : Nat} (h : k < 2098) : 2 ^ k < limit := by
  obtain ⟨n, hn, hlimit⟩ := exists_limit_eq_two_pow
  rw [hlimit]
  exact Nat.pow_lt_pow_right (by decide) (hn ▸ h)

/-! ## Quotients and products -/

variable {a b c d : Double}

/-- A quotient by one or more is no larger than the power of two above the dividend. -/
theorem exists_div? {k : Nat} (hk : k < 2098) (ha : a.units ≤ 2 ^ k) (hb : one ≤ b.units) :
    ∃ d, a.div? b = some d ∧ d.units ≤ 2 ^ k := by
  have pos : 0 < b.units := Nat.lt_of_lt_of_le one_pos hb
  have below : a.units * one ≤ 2 ^ k * b.units := Nat.mul_le_mul ha hb
  have quotient : a.units * one / b.units ≤ 2 ^ k := by
    rw [Nat.div_le_iff_le_mul pos]
    omega
  have log : (a.units * one / b.units).log2 ≤ k := by
    have mono := log2_mono quotient
    rwa [Nat.log2_two_pow] at mono
  have rounded := round_le_two_pow pos log below
  exact ⟨_, if_pos (Nat.lt_of_le_of_lt rounded (pow_lt_limit hk)), rounded⟩

/-- With smaller factors a product does not become too large either. -/
theorem isSome_mul?_of_le (h : (a.mul? b).isSome) (hca : c.units ≤ a.units)
    (hdb : d.units ≤ b.units) : (c.mul? d).isSome := by
  have smaller : round (c.units * d.units) one ≤ round (a.units * b.units) one :=
    round_mono one_pos (Nat.mul_le_mul hca hdb)
  simp only [mul?, ofUnits?] at h ⊢
  by_cases hlimit : round (a.units * b.units) one < limit
  · rw [if_pos (Nat.lt_of_le_of_lt smaller hlimit)]
    rfl
  · rw [if_neg hlimit] at h
    cases h

theorem ofInt_units_mono {m n : Nat} (h : m ≤ n) : (ofInt m).units ≤ (ofInt n).units :=
  round_mono Nat.one_pos (Nat.mul_le_mul_right one h)

theorem ofInt_units_le {n : Nat} (h : n ≤ 2 ^ 64) : (ofInt n).units ≤ 2 ^ 1138 := by
  have largest : (ofInt (2 ^ 64 : Nat)).units = 2 ^ 1138 := by decide +kernel
  exact largest ▸ ofInt_units_mono h

theorem one_le_ofInt_units {n : Nat} (h : 0 < n) : one ≤ (ofInt n).units := by
  have least : (ofInt (1 : Nat)).units = one := by decide +kernel
  exact least ▸ ofInt_units_mono h

/-- Four times a magnitude that is so far below the limit that no decimal between them and the limit
has few digits. -/
def safeQuarters : Nat := 4 * 2 ^ 2098 - 6 * 2 ^ 2045

end Double

namespace Numeral

theorem one_le_powerOfTen (n : Nat) : Double.one ≤ (powerOfTen n).units :=
  Double.one_le_ofInt_units (Nat.pow_pos (by decide))

theorem powerOfTen_units_mono {m n : Nat} (h : m ≤ n) :
    (powerOfTen m).units ≤ (powerOfTen n).units :=
  Double.ofInt_units_mono (Nat.pow_le_pow_right (by decide) h)

/-- The greatest significand of seventeen digits that is safe with a power of ten. -/
def greatestFor (power : Nat) : Nat :=
  min (10 ^ 17) (Double.safeQuarters / (4 * Double.one * 10 ^ power))

/-- From `10 ^ 290` on the limit of the doubles matters for significands of seventeen digits. -/
theorem isSome_mul?_greatestFor : ∀ above < 19,
    ((Double.ofInt (greatestFor (290 + above))).mul? (powerOfTen (290 + above))).isSome := by
  decide +kernel

theorem isSome_mul?_powerOfTen {significand power : Nat} (hfew : significand ≤ 10 ^ 17)
    (hpower : power < 309) (hgreatest : significand ≤ greatestFor power) :
    ((Double.ofInt significand).mul? (powerOfTen power)).isSome := by
  by_cases hlow : power < 290
  · have ten : 10 ^ 17 ≤ greatestFor 290 := by decide +kernel
    exact Double.isSome_mul?_of_le (isSome_mul?_greatestFor 0 (by decide))
      (Double.ofInt_units_mono (Nat.le_trans hfew ten))
      (powerOfTen_units_mono (Nat.le_of_lt hlow))
  · obtain ⟨above, rfl⟩ := Nat.exists_eq_add_of_le (Nat.le_of_not_lt hlow)
    exact Double.isSome_mul?_of_le (isSome_mul?_greatestFor above (by omega))
      (Double.ofInt_units_mono hgreatest) (Nat.le_refl _)

theorem isSome_scale?_of_neg {significand : Nat} (h : significand < 2 ^ 64) {power : Int}
    (hpower : power < 0) : (scale? significand power).isSome := by
  have units := Double.ofInt_units_le (Nat.le_of_lt h)
  rw [scale?, if_neg (by omega), if_neg (by omega)]
  by_cases hfar : -308 ≤ power
  · obtain ⟨d, hd, -⟩ := Double.exists_div? (by decide) units (one_le_powerOfTen power.natAbs)
    rw [if_pos hfar, hd]
    rfl
  rw [if_neg hfar]
  by_cases hfarther : -616 ≤ power
  · obtain ⟨d, hd, hunits⟩ := Double.exists_div? (by decide) units (one_le_powerOfTen 308)
    obtain ⟨e, he, -⟩ :=
      Double.exists_div? (by decide) hunits (one_le_powerOfTen (power.natAbs - 308))
    rw [if_pos hfarther, hd, Option.bind_eq_bind, Option.bind_some, he]
    rfl
  · rw [if_neg hfarther]
    rfl

section

variable {d : Decimal} {quarters : Nat} (h : d.Fits quarters)
  (hquarters : quarters ≤ Double.safeQuarters)

include h hquarters

/-- Where the exponent is a natural number only it counts. -/
theorem le_safeQuarters {power : Nat} (hpower : d.exponent = power) :
    4 * (d.digits * Double.one) * 10 ^ power ≤ Double.safeQuarters := by
  have atMost := h.atMost
  have none : (-(power : Int)).toNat = 0 := by omega
  rw [hpower, Int.toNat_natCast, none, Nat.pow_zero, Nat.mul_one] at atMost
  exact Nat.le_trans atMost hquarters

theorem exponent_lt : d.exponent < 309 := by
  refine Int.lt_of_not_ge fun hlarge => ?_
  obtain ⟨power, hpower⟩ : ∃ power : Nat, d.exponent = power := ⟨d.exponent.toNat, by omega⟩
  have least : ∀ n ≤ power, 4 * (1 * Double.one) * 10 ^ n ≤ Double.safeQuarters := fun n hn =>
    Nat.le_trans (Nat.mul_le_mul (Nat.mul_le_mul_left 4 (Nat.mul_le_mul_right _ h.positive))
      (Nat.pow_le_pow_right (by decide) hn)) (le_safeQuarters h hquarters hpower)
  have exceeded : ¬ 4 * (1 * Double.one) * 10 ^ 309 ≤ Double.safeQuarters := by decide +kernel
  exact exceeded (least 309 (by omega))

/-- A decimal that is safely below the limit is a double. -/
theorem isSome_scale? : (scale? d.digits d.exponent).isSome := by
  by_cases hneg : d.exponent < 0
  · exact isSome_scale?_of_neg (Nat.lt_of_le_of_lt h.few (by decide)) hneg
  obtain ⟨power, hpower⟩ : ∃ power : Nat, d.exponent = power := ⟨d.exponent.toNat, by omega⟩
  have large := exponent_lt h hquarters
  have greatest : d.digits ≤ greatestFor power := by
    refine Nat.le_min.2 ⟨h.few, ?_⟩
    rw [Nat.le_div_iff_mul_le (Nat.mul_pos (Nat.mul_pos (by decide) Double.one_pos)
      (Nat.pow_pos (by decide))), ← Nat.mul_assoc, Nat.mul_left_comm]
    exact le_safeQuarters h hquarters hpower
  rw [hpower, scale?, if_neg (by omega), if_pos (by omega), Int.toNat_natCast]
  exact isSome_mul?_powerOfTen h.few (by omega) greatest

end

end Numeral

end RecordStore

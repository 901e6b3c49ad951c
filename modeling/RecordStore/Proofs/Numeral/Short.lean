import RecordStore.Proofs.Double.Exact
import RecordStore.Sql.Decimal

/-!
# Short numerals

The two readers of numerals agree on integers of at most fifteen digits: documents
(`Numeral.number?`) and SQLite (`Sql.readNumeral?`) read the integer itself.
-/

namespace RecordStore

namespace Numeral

/-- An integer of at most fifteen digits, with neither a point nor an exponent. -/
structure IsShort (numeral : Numeral) : Prop where
  fraction : numeral.fraction = []
  exponent : numeral.exponent = none
  length : numeral.whole.length ≤ 15

/-- The integer before the point. -/
def value (numeral : Numeral) : Int :=
  if numeral.negative then -(ofDigits numeral.whole : Int) else ofDigits numeral.whole

/-! ## Digits -/

theorem digit_le {c : Char} (h : isDigit c = true) : digit c ≤ 9 := by
  simp only [isDigit, Bool.and_eq_true, decide_eq_true_eq, Char.le_def] at h
  have upper : c.toNat ≤ '9'.toNat := h.2
  have nine : '9'.toNat = 57 := rfl
  have zero : '0'.toNat = 48 := rfl
  rw [digit]
  omega

/-- The digits that are scanned before the point are digits. -/
theorem whole_all_isDigit {cs : List Char} {numeral : Numeral} (h : ofText? cs = some numeral) :
    numeral.whole.all isDigit = true := by
  have scanned : ∀ {cs whole rest : List Char}, scanWhole? cs = some (whole, rest) →
      whole.all isDigit = true := by
    intro cs whole rest hscan
    have taken : whole = cs.takeWhile isDigit := by
      simp only [scanWhole?, digits] at hscan
      split at hscan
      · cases hscan
      · cases hscan
      · exact (congrArg Prod.fst (Option.some.inj hscan)).symm
    rw [taken]
    exact List.all_takeWhile
  simp only [ofText?, scan?, Option.bind_eq_bind, Option.bind_eq_some_iff, Prod.exists] at h
  obtain ⟨found, rest, ⟨whole, rest₁, hwhole, fraction, rest₂, -, exponent, rest₃, -, hfound⟩, h⟩ := h
  split at h
  · cases h
    cases hfound
    exact scanned hwhole
  · cases h

/-- The number that digits denote behind others. -/
def ofDigitsFrom (significand : Nat) (digits : List Char) : Nat :=
  digits.foldl (fun n c => 10 * n + digit c) significand

theorem ofDigitsFrom_cons (significand : Nat) (c : Char) (cs : List Char) :
    ofDigitsFrom significand (c :: cs) = ofDigitsFrom (10 * significand + digit c) cs := by
  simp only [ofDigitsFrom, List.foldl_cons]

/-- With a digit behind it a significand stays below the same power of ten. -/
theorem succ_mul_pow_le {significand limit k : Nat} {c : Char} (hc : isDigit c = true)
    (h : (significand + 1) * 10 ^ (k + 1) ≤ limit) :
    (10 * significand + digit c + 1) * 10 ^ k ≤ limit := by
  have next : 10 * significand + digit c + 1 ≤ (significand + 1) * 10 := by
    have := digit_le hc
    omega
  calc (10 * significand + digit c + 1) * 10 ^ k
      ≤ (significand + 1) * 10 * 10 ^ k := Nat.mul_le_mul_right _ next
    _ = (significand + 1) * 10 ^ (k + 1) := by
      rw [Nat.pow_succ, Nat.mul_comm (10 ^ k), Nat.mul_assoc]
    _ ≤ limit := h

theorem lt_of_succ_mul_pow_le {significand limit k : Nat}
    (h : (significand + 1) * 10 ^ k ≤ limit) : significand < limit := by
  have pos : 0 < 10 ^ k := Nat.pow_pos (by decide)
  have least : (significand + 1) * 1 ≤ (significand + 1) * 10 ^ k := Nat.mul_le_mul_left _ pos
  omega

theorem ofDigitsFrom_lt {digits : List Char} (hdigits : digits.all isDigit = true) :
    ∀ {significand limit : Nat}, (significand + 1) * 10 ^ digits.length ≤ limit →
      ofDigitsFrom significand digits < limit := by
  induction digits with
  | nil => exact fun h => lt_of_succ_mul_pow_le h
  | cons c cs ih =>
    intro significand limit h
    simp only [List.all_cons, Bool.and_eq_true] at hdigits
    rw [ofDigitsFrom_cons]
    exact ih hdigits.2 (succ_mul_pow_le hdigits.1 h)

theorem le_ofDigitsFrom (digits : List Char) : ∀ significand,
    significand ≤ ofDigitsFrom significand digits := by
  induction digits with
  | nil => exact fun _ => Nat.le_refl _
  | cons c cs ih =>
    intro significand
    have further := ih (10 * significand + digit c)
    rw [ofDigitsFrom_cons]
    omega

/-- Digits are accumulated as long as the number that they denote fits. -/
theorem accumulate_of_lt {digits : List Char} :
    ∀ {significand : Nat}, ofDigitsFrom significand digits < 2 ^ 64 →
      accumulate significand digits = (ofDigitsFrom significand digits, []) := by
  induction digits with
  | nil => exact fun _ => rfl
  | cons c cs ih =>
    intro significand h
    rw [ofDigitsFrom_cons] at h ⊢
    have next := Nat.lt_of_le_of_lt (le_ofDigitsFrom cs _) h
    simp only [accumulate]
    rw [if_pos next, ih h]

theorem readDigits_eq {digits : List Char} (hdigits : digits.all isDigit = true) :
    ∀ {significand : Nat}, (significand + 1) * 10 ^ digits.length ≤ Sql.fullSignificand →
      Sql.readDigits significand digits = (ofDigitsFrom significand digits, []) := by
  induction digits with
  | nil => exact fun _ => rfl
  | cons c cs ih =>
    intro significand h
    simp only [List.all_cons, Bool.and_eq_true] at hdigits
    simp only [Sql.readDigits]
    rw [if_pos (lt_of_succ_mul_pow_le h), ih hdigits.2 (succ_mul_pow_le hdigits.1 h),
      ofDigitsFrom_cons]

/-! ## Values -/

section

variable {numeral : Numeral} (hshort : numeral.IsShort) (hdigits : numeral.whole.all isDigit = true)

include hshort in
theorem pow_length_le : (0 + 1) * 10 ^ numeral.whole.length ≤ 10 ^ 15 := by
  rw [Nat.zero_add, Nat.one_mul]
  exact Nat.pow_le_pow_right (by decide) hshort.length

include hshort hdigits

theorem ofDigits_lt : ofDigits numeral.whole < 10 ^ 15 :=
  ofDigitsFrom_lt hdigits (pow_length_le hshort)

theorem number?_eq : numeral.number? = some (numeral.integer (ofDigits numeral.whole)) := by
  have read : accumulate 0 numeral.whole = (ofDigits numeral.whole, []) :=
    accumulate_of_lt (Nat.lt_trans (ofDigits_lt hshort hdigits) (by decide))
  simp [number?, read, hshort.fraction, hshort.exponent]

/-- As documents read it, the number is the integer. -/
theorem signed_number? :
    (numeral.number?.map Number.toDouble).map Double.signed =
      some (numeral.value * Double.one) := by
  have bound := ofDigits_lt hshort hdigits
  rw [number?_eq hshort hdigits]
  simp only [Option.map_some, Option.some.injEq, integer, value]
  cases numeral.negative with
  | false => simpa [Number.toDouble] using Double.signed_ofInt (by omega)
  | true =>
    by_cases hzero : ofDigits numeral.whole = 0
    · rw [hzero]
      decide +kernel
    · have small : ¬ (ofDigits numeral.whole = 0 ∨ 2 ^ 63 < ofDigits numeral.whole) := by omega
      simp only [Bool.not_true, Bool.false_eq_true, if_false, if_neg small, if_true]
      exact Double.signed_ofInt (by omega)

/-- As SQLite reads it, the number is the integer. -/
theorem signed_readNumeral? :
    (Sql.readNumeral? numeral).map Double.signed = some (numeral.value * Double.one) := by
  have bound := ofDigits_lt hshort hdigits
  have read : Sql.readDigits 0 numeral.whole = (ofDigits numeral.whole, []) :=
    readDigits_eq hdigits (Nat.le_trans (pow_length_le hshort) (by decide))
  have units : (Double.ofInt (ofDigits numeral.whole)).units = ofDigits numeral.whole * Double.one := by
    rw [Double.ofInt_eq (by omega)]
    rfl
  by_cases hzero : ofDigits numeral.whole = 0
  · have zero : Sql.readNumeral? numeral = some ⟨numeral.negative, 0 * Double.one⟩ := by
      simp [Sql.readNumeral?, Sql.readDigits, read, hshort.fraction, hzero]
    rw [zero, Option.map_some, Double.signed_mk_mul_one, value, hzero]
  · have nonzero : Sql.readNumeral? numeral =
        some ⟨numeral.negative, ofDigits numeral.whole * Double.one⟩ := by
      simp [Sql.readNumeral?, Sql.readDigits, Sql.scaled?, Sql.absorb, read, hshort.fraction,
        hshort.exponent, hzero, units]
    rw [nonzero, Option.map_some, Double.signed_mk_mul_one, value]

end

end Numeral

end RecordStore

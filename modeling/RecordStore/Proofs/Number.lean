import RecordStore.Number

/-!
# Integers as words

The integers that a signed 64-bit word holds are read as this word, and all others are not.
-/

namespace RecordStore

namespace Number

variable {i : Int}

theorem int64?_of_bounds (h : -2 ^ 63 ≤ i ∧ i < 2 ^ 63) :
    (int i).int64? = some (Int64.ofInt i) := by
  rw [int64?, if_pos h]

theorem int64?_of_not_bounds (h : ¬ (-2 ^ 63 ≤ i ∧ i < 2 ^ 63)) : (int i).int64? = none := by
  rw [int64?, if_neg h]

theorem toInt_ofInt (h : -2 ^ 63 ≤ i ∧ i < 2 ^ 63) : (Int64.ofInt i).toInt = i :=
  Int64.toInt_ofInt_of_le h.1 h.2

/-- Every word is what its integer is read as. -/
theorem int64?_toInt (word : Int64) : (int word.toInt).int64? = some word := by
  have low := word.le_toInt
  have high := word.toInt_lt
  rw [int64?_of_bounds (by omega), Int64.ofInt_toInt]

end Number

end RecordStore

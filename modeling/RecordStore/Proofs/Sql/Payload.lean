import RecordStore.Proofs.Number
import RecordStore.Proofs.Sql.Operand
import RecordStore.Proofs.Sql.Place
import RecordStore.Proofs.Value.Text

/-!
# Payload predicates in SQL

On plain payloads the condition of a payload predicate has the truth value of the predicate
(`Sql.eval_payload`). The induction follows the path: it keeps that the place of the condition holds
the value reached so far, where a place that does not exist holds null (`Sql.eval_pathCondition`).
Below a wildcard the place begins at an element of the array, which the range over the elements has
just named.
-/

namespace RecordStore

namespace Sql

/-! ## Equality -/

theorem ofNumber_int {i : Int} (h : i.natAbs ≤ 2 ^ 53) :
    Datum.ofNumber (.int i) = .integer i := by
  have bounds : -2 ^ 63 ≤ i ∧ i < 2 ^ 63 := by omega
  simp only [Datum.ofNumber, Number.int64?_of_bounds bounds, Number.toInt_ofInt bounds]

theorem ofParameter_int {i : Int} (h : i.natAbs ≤ 2 ^ 53) :
    Datum.ofParameter (.ofNumber (.int i)) = .integer i := by
  have bounds : -2 ^ 63 ≤ i ∧ i < 2 ^ 63 := by omega
  simp only [Parameter.ofNumber, Number.int64?_of_bounds bounds, Number.toInt_ofInt bounds,
    Datum.ofParameter]

theorem isString_and_equals3 (found : Option Value) (t : String) :
    ((orNull found).string?.isSome && (equals3 (valueDatum found) (.text t) == some true)) =
      (orNull found).equal (.string t) := by
  rcases found with _ | v
  · rfl
  cases v with
  | string s =>
    simp [valueDatum, Datum.ofValue, equals3_text, orNull, Value.equal, Value.string?]
  | _ => rfl

section

variable {found : Option Value} (hfound : (orNull found).Plain)

include hfound

theorem isNumber_and_equals3 {j : Int} (hj : j.natAbs ≤ 2 ^ 53) :
    ((orNull found).number?.isSome &&
      (equals3 (valueDatum found) (.ofParameter (.ofNumber (.int j))) == some true)) =
      (orNull found).equal (.number (.int j)) := by
  rw [ofParameter_int hj]
  rcases found with _ | v
  · rfl
  cases v with
  | number m =>
    obtain ⟨i, rfl, hi⟩ := Value.Plain.number hfound
    have equal : (Number.int i).equal (.int j) = (i == j) := by
      rw [Bool.eq_iff_iff, Value.equal_int_iff hi hj, beq_iff_eq]
    simp [valueDatum, Datum.ofValue, ofNumber_int hi, equals3_integer, orNull, Value.equal,
      Value.number?, equal]
  | _ => rfl

/-- Two plain arrays have the same text if they are equal. -/
theorem isArray_and_equals3 {items : List Value} (hitems : (Value.array items).Plain) :
    ((orNull found).isArray &&
      (equals3 (valueDatum found) (.text (Value.array items).render) == some true)) =
      (orNull found).equal (.array items) := by
  rcases found with _ | v
  · rfl
  cases v with
  | array others =>
    have same : ((Value.array others).render == (Value.array items).render) =
        (Value.array others).equal (.array items) := Value.render_beq hfound hitems
    simp [valueDatum, Datum.ofValue, equals3_text, orNull, Value.isArray, same]
  | _ => rfl

/-- Two plain objects have the same text if they are equal. -/
theorem isObject_and_equals3 {fields : Fields} (hfields : (Value.object fields).Plain) :
    ((orNull found).isObject &&
      (equals3 (valueDatum found) (.text (Value.object fields).render) == some true)) =
      (orNull found).equal (.object fields) := by
  rcases found with _ | v
  · rfl
  cases v with
  | object others =>
    have same : ((Value.object others).render == (Value.object fields).render) =
        (Value.object others).equal (.object fields) := Value.render_beq hfound hfields
    simp [valueDatum, Datum.ofValue, equals3_text, orNull, Value.isObject, same]
  | _ => rfl

end

section

variable {env : Env} {place : Place} (hfound : (orNull (env.value? place)).Plain)

include hfound

/-- Equality with a plain value. -/
theorem eval_eq {w : Value} (hw : w.Plain) :
    ((Operand.ofPlace place).eq w).eval env =
      some ((orNull (env.value? place)).equal w) := by
  have type : (Operand.ofPlace place).type.eval env = typeDatum (env.value? place) := rfl
  have value : (Operand.ofPlace place).value.eval env = valueDatum (env.value? place) := rfl
  generalize env.value? place = found at hfound type value
  cases w with
  | null =>
    have shape : (Operand.ofPlace place).eq .null =
        .flag (.hasNullType (Operand.ofPlace place).type) := rfl
    rw [shape, Operand.eval_flag, Condition.eval, type]
    rcases found with _ | _ | (_ | _) | (_ | _) | _ | _ | _ <;> rfl
  | bool b =>
    have shape : (Operand.ofPlace place).eq (.bool b) =
        .flag (.hasType (Operand.ofPlace place).type (if b then "true" else "false")) := rfl
    rw [shape, Operand.eval_flag, Condition.eval_hasType_eq_true, type]
    cases b <;> rcases found with _ | _ | (_ | _) | (_ | _) | _ | _ | _ <;> rfl
  | number n =>
    obtain ⟨j, rfl, hj⟩ := hw.number
    have shape : (Operand.ofPlace place).eq (.number (.int j)) =
        (Operand.ofPlace place).ofNumberType
          (.equals (Operand.ofPlace place).value (.ofNumber (.int j))) := rfl
    rw [shape, Condition.eval_ofNumberType, type, typeDatum_number, Condition.eval, value]
    exact congrArg some (isNumber_and_equals3 hfound hj)
  | string t =>
    have shape : (Operand.ofPlace place).eq (.string t) =
        (Operand.ofPlace place).ofType "text"
          (.equals (Operand.ofPlace place).value (.text t)) := rfl
    rw [shape, Condition.eval_ofType, type, typeDatum_text, Condition.eval, value]
    exact congrArg some (isString_and_equals3 found t)
  | array items =>
    have shape : (Operand.ofPlace place).eq (.array items) =
        (Operand.ofPlace place).ofType "array"
          (.equalsJson (Operand.ofPlace place).value (.array items)) := rfl
    rw [shape, Condition.eval_ofType, type, typeDatum_array, Condition.eval, value]
    exact congrArg some (isArray_and_equals3 hfound hw)
  | object fields =>
    have shape : (Operand.ofPlace place).eq (.object fields) =
        (Operand.ofPlace place).ofType "object"
          (.equalsJson (Operand.ofPlace place).value (.object fields)) := rfl
    rw [shape, Condition.eval_ofType, type, typeDatum_object, Condition.eval, value]
    exact congrArg some (isObject_and_equals3 hfound hw)

end

/-! ## Numbers -/

theorem takeWhile_nul {s : String} (h : Text.IsPrintable s.toList) :
    s.toList.takeWhile (· != '\x00') = s.toList := by
  rw [List.takeWhile_eq_self_iff]
  intro c hc
  rw [bne_iff_ne]
  rintro rfl
  exact h.no_nul hc

/-- The number that SQLite finds in a plain value is the one that the value denotes. -/
theorem test_numberDatum {found : Option Value} (hfound : (orNull found).Plain)
    (op : Comparison) (bound : Double) :
    (test op.holds (numberDatum found) (.real bound) == some true) =
      (orNull found).numeric?.any fun d => op.holds (d.compare bound) := by
  rcases found with _ | v
  · rfl
  cases v with
  | number n =>
    obtain ⟨i, rfl, hi⟩ := hfound.number
    have datum : numberDatum (some (.number (.int i))) = .integer i := ofNumber_int hi
    have compare_eq :
        (Double.ofInt i).compare bound = compare (i * (Double.one : Int)) bound.signed := by
      rw [Double.compare, Double.signed_ofInt hi]
    rw [datum, test_eq_true, compare_integer_real]
    simp [orNull, Value.numeric?, Number.toDouble, compare_eq]
  | string s =>
    have text := takeWhile_nul hfound.string
    cases hnumeral : Numeral.ofText? s.toList with
    | none =>
      have datum : numberDatum (some (.string s)) = .null := by
        simp only [numberDatum, Datum.numberOfText, text, hnumeral]
      simp [datum, test_null_left, orNull, Value.numeric?, Numeral.double?, hnumeral]
    | some numeral =>
      have short := Value.Plain.isShort hfound hnumeral
      have digits := Numeral.whole_all_isDigit hnumeral
      obtain ⟨n, hn, hsigned⟩ := Option.map_eq_some_iff.1 (Numeral.signed_number? short digits)
      obtain ⟨d, hd, hsigned'⟩ :=
        Option.map_eq_some_iff.1 (Numeral.signed_readNumeral? short digits)
      have datum : numberDatum (some (.string s)) = .real d := by
        simp only [numberDatum, Datum.numberOfText, text, hnumeral, Datum.ofNumeral, hd]
      have compare_eq : d.compare bound = n.compare bound := by
        rw [Double.compare, Double.compare, hsigned, hsigned']
      rw [datum, test_eq_true, compare_real, compare_eq]
      simp [orNull, Value.numeric?, Numeral.double?, hnumeral, hn]
  | _ => rfl

/-! ## Texts -/

theorem lowerAscii_eq {cs : List Char} (h : Text.IsPrintable cs) :
    lowerAscii cs = cs.map Text.foldCase :=
  List.map_congr_left fun c hc => (Text.foldCase_eq_toLower (h c hc)).symm

theorem contains3_text {needle s : String} (hneedle : Text.IsPrintable needle.toList)
    (hs : Text.IsPrintable s.toList) (caseSensitive : Bool) :
    contains3 needle caseSensitive (.text s) = some (Text.holds needle caseSensitive s) := by
  cases caseSensitive with
  | true => rfl
  | false =>
    simp only [contains3, Text.holds, lowerAscii_eq hneedle, lowerAscii_eq hs, Bool.false_eq_true,
      if_false]

/-! ## Predicates -/

section

variable {env : Env} {place : Place} (hfound : (orNull (env.value? place)).Plain)

include hfound

/-- A condition on a place has the truth value of the predicate for the value there. -/
theorem eval_positive {predicate : Predicate} (hpredicate : predicate.IsPlain) :
    ((Operand.ofPlace place).positive predicate).eval env =
      some (predicate.test (orNull (env.value? place))) := by
  have member : ∀ {values : List Value}, (∀ v ∈ values, v.Plain) →
      ((Operand.ofPlace place).isIn values).eval env =
        some (values.any (orNull (env.value? place)).equal) := by
    intro values hvalues
    rw [Operand.eval_isIn]
    refine congrArg some (any_congr_of_mem fun v hv => ?_)
    rw [eval_eq hfound (hvalues v hv), Option.some_beq_some, beq_true]
  have number : (Operand.ofPlace place).number.eval env = numberDatum (env.value? place) := rfl
  have type : (Operand.ofPlace place).type.eval env = typeDatum (env.value? place) := rfl
  have value : (Operand.ofPlace place).value.eval env = valueDatum (env.value? place) := rfl
  cases predicate with
  | eq v => exact eval_eq hfound hpredicate
  | neq v => exact eval_eq hfound hpredicate
  | isIn values => exact member hpredicate
  | notIn values => exact member hpredicate
  | compare op bound =>
    rw [Operand.positive, Operand.eval_flag, Condition.eval, number]
    obtain ⟨bound, rfl⟩ := hpredicate.exists
    exact congrArg some (test_numberDatum hfound op bound)
  | between low high =>
    rw [Operand.positive, Operand.eval_flag, Condition.eval, number, and3_eq_true]
    obtain ⟨low, rfl⟩ := hpredicate.1.exists
    obtain ⟨high, rfl⟩ := hpredicate.2.exists
    refine congrArg some ?_
    rw [Datum.ofParameter_finite, Datum.ofParameter_finite, test_numberDatum hfound,
      test_numberDatum hfound, Predicate.test]
    cases (orNull (env.value? place)).numeric? <;> rfl
  | like needle caseSensitive =>
    rw [Operand.positive, Condition.eval_ofType, type, typeDatum_text, Condition.eval, value]
    generalize env.value? place = found at hfound
    rcases found with _ | v
    · rfl
    cases v with
    | string s =>
      have text : contains3 needle caseSensitive (valueDatum (some (.string s))) =
          some (Text.holds needle caseSensitive s) :=
        contains3_text hpredicate (Value.Plain.string hfound) caseSensitive
      simp [text, orNull, Value.string?, Predicate.test]
    | _ => rfl
  | «exists» flag => exact absurd hpredicate id

end

/-! ## Paths -/

theorem any_range_getElem? (items : List Value) (f : Value → Bool) :
    ((List.range items.length).any fun i => f (orNull items[i]?)) = items.any f := by
  rw [Bool.eq_iff_iff, List.any_eq_true, List.any_eq_true]
  constructor
  · rintro ⟨i, hi, h⟩
    rw [List.getElem?_eq_getElem (List.mem_range.1 hi)] at h
    exact ⟨_, List.getElem_mem _, h⟩
  · rintro ⟨v, hv, h⟩
    obtain ⟨i, hi, rfl⟩ := List.mem_iff_getElem.1 hv
    refine ⟨i, List.mem_range.2 hi, ?_⟩
    rwa [List.getElem?_eq_getElem hi]

/-- The condition of a path has the truth value of what holds at the path, below the value at its
place. -/
theorem eval_pathCondition {predicate : Predicate} (hpredicate : predicate.IsPlain)
    {segments : List Segment} :
    ∀ (env : Env) (place : Place) (depth : Nat), env.row.payload.Plain →
      (∀ segment ∈ segments, segment.IsPlain) →
      (pathCondition predicate place depth segments).eval env =
        some (Path.holds Value.enter predicate.test segments (orNull (env.value? place))) := by
  induction segments with
  | nil =>
    intro env place depth hplain _
    exact eval_positive (plain_value? hplain place) hpredicate
  | cons segment rest ih =>
    intro env place depth hplain hsegments
    have hsegment := hsegments segment List.mem_cons_self
    have hrest : ∀ segment ∈ rest, segment.IsPlain :=
      fun segment h => hsegments segment (List.mem_cons_of_mem _ h)
    by_cases hw : segment = .wildcard
    · subst hw
      have shape : pathCondition predicate place depth (.wildcard :: rest) =
          .flag (.someElement place depth
            (pathCondition predicate ⟨some depth, []⟩ (depth + 1) rest)) := rfl
      rw [shape, Operand.eval_flag, Condition.eval]
      cases hfound : env.value? place with
      | none => rfl
      | some v =>
        cases v with
        | array items =>
          have element : ∀ i ∈ List.range items.length,
              ((pathCondition predicate ⟨some depth, []⟩ (depth + 1) rest).eval
                (env.ofElement place depth i) == some true) =
              Path.holds Value.enter predicate.test rest (orNull items[i]?) := by
            intro i _
            have found : (env.ofElement place depth i).value? ⟨some depth, []⟩ = items[i]? := by
              rw [Env.value?_ofElement, hfound, Option.bind_some, step?]
            rw [ih (env.ofElement place depth i) _ (depth + 1) hplain hrest, found,
              Option.some_beq_some, beq_true]
          simp only [any_congr_of_mem element, Option.some_beq_some, beq_true]
          exact congrArg some (any_range_getElem? items _)
        | _ => rfl
    · rw [pathCondition_cons _ hw, ih env _ depth hplain hrest, Env.value?_snoc,
        readSegment_eq (isVerbatim_of_isPlain hsegment),
        orNull_bind_step? (plain_value? hplain place) hsegment hw, Path.holds_step hw]

end Sql

end RecordStore

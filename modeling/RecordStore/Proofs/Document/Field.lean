import RecordStore.Proofs.Document.Expression

/-!
# Predicates as field conditions

What a predicate on a dotted key asks for (`Predicate.selects`), and that its field condition is
satisfied exactly then (`Document.satisfies_fieldCondition`): matching it never fails. The key of an
attribute reaches the attribute and nothing else (`Document.reachedAt_attribute`).
-/

namespace RecordStore

open Document

/-- Whether a number stands in a relation to a bound. None does to a bound that is not finite. -/
def Comparison.admits (op : Comparison) (d : Double) : Float64 → Bool
  | .finite bound => op.holds (d.compare bound)
  | _ => false

/-- Whether the values that a dotted path reaches have what a predicate asks for. -/
def Predicate.selects (found : List (Option Value)) : Predicate → Bool
  | .eq v => equalsSome found v
  | .neq v => !equalsSome found v
  | .isIn values => values.any (equalsSome found)
  | .notIn values => !values.any (equalsSome found)
  | .compare op bound => comparesSome found op (.float bound)
  | .between low high =>
    comparesSome found .gte (.float low) && comparesSome found .lte (.float high)
  | .like needle caseSensitive =>
    (candidates found).any fun v => v.string?.any (Text.holds needle caseSensitive)
  | .exists flag => found.any Option.isSome == flag

namespace Document

/-! ## One value -/

theorem equalsSome_singleton {x : Value} (h : x.isArray = false) (v : Value) :
    equalsSome [some x] v = x.equal v := by
  cases x with
  | array items => cases h
  | _ => simp [equalsSome, candidates]

theorem comparesSome_singleton {x : Value} (h : x.isArray = false) (op : Comparison)
    (bound : Float64) :
    comparesSome [some x] op (.float bound) =
      x.number?.any fun n => op.admits n.toDouble bound := by
  cases bound with
  | finite bound =>
    cases x with
    | array items => cases h
    | number n => simp [comparesSome, candidates, areComparable, Value.float, Value.double,
        Value.number?, Value.compare, Number.compare, Number.toDouble, Comparison.admits]
    | _ => simp [comparesSome, candidates, areComparable, Value.float, Value.double,
        Value.number?]
  | _ => cases x <;> simp [comparesSome, candidates, areComparable, Value.float, Value.number?,
      Comparison.admits] at h ⊢

/-! ## Operators -/

theorem operatorsHold_singleton {found : List (Option Value)} {operators : Fields} {op : String}
    {operand : Value} {b : Bool} (h : operatorHolds found operators op operand = .ok b) :
    operatorsHold found operators [(op, operand)] = .ok b := by
  rw [operatorsHold, h]
  cases b <;> rfl

theorem operatorsHold_pair {found : List (Option Value)} {operators : Fields} {op op' : String}
    {operand operand' : Value} {b b' : Bool}
    (h : operatorHolds found operators op operand = .ok b)
    (h' : operatorHolds found operators op' operand' = .ok b') :
    operatorsHold found operators [(op, operand), (op', operand')] = .ok (b && b') := by
  rw [operatorsHold, h]
  cases b with
  | false => rfl
  | true => exact operatorsHold_singleton h'

theorem matchesSome_escapePattern (found : List (Option Value)) (needle : String)
    (options : Option Value) {caseSensitive : Bool}
    (h : search (.string (escapePattern needle)) options = .ok (Text.holds needle caseSensitive)) :
    matchesSome found (.string (escapePattern needle)) options =
      .ok ((candidates found).any fun v => v.string?.any (Text.holds needle caseSensitive)) := by
  rw [matchesSome, h]
  rfl

theorem operatorsHold_fieldOperators (found : List (Option Value)) (predicate : Predicate) :
    operatorsHold found (fieldOperators predicate) (fieldOperators predicate) =
      .ok (predicate.selects found) := by
  cases predicate with
  | eq v => exact operatorsHold_singleton rfl
  | neq v => exact operatorsHold_singleton rfl
  | isIn values => exact operatorsHold_singleton rfl
  | notIn values => exact operatorsHold_singleton rfl
  | compare op bound => cases op <;> exact operatorsHold_singleton rfl
  | between low high => exact operatorsHold_pair rfl rfl
  | like needle caseSensitive =>
    cases caseSensitive with
    | true =>
      exact operatorsHold_singleton
        (matchesSome_escapePattern found needle none (Expression.search_escapePattern needle true))
    | false =>
      have options : operatorHolds found (fieldOperators (.like needle false)) "$options"
          (.string "i") = .ok true := rfl
      have regex : operatorHolds found (fieldOperators (.like needle false)) "$regex"
          (.string (escapePattern needle)) =
            .ok (Predicate.selects found (.like needle false)) :=
        matchesSome_escapePattern found needle _ (Expression.search_escapePattern needle false)
      exact operatorsHold_pair options regex
  | «exists» flag => exact operatorsHold_singleton rfl

theorem hasOperators_fieldOperators (predicate : Predicate) :
    hasOperators (fieldOperators predicate) = true := by
  cases predicate with
  | compare op bound =>
    cases op <;> simp [hasOperators, fieldOperators, isOperator, comparisonKey]
  | like needle caseSensitive =>
    cases caseSensitive <;> simp [hasOperators, fieldOperators, isOperator]
  | _ => simp [hasOperators, fieldOperators, isOperator]

/-! ## Field conditions -/

/-- A filter with one key that is no operator is a field condition. -/
theorem satisfies_single {key : String} (h : isOperator key = false) (document condition : Value) :
    satisfies document (single key condition) = fieldHolds document key condition := by
  have other : ∀ op, isOperator op = true → key ≠ op := by
    rintro op hop rfl
    rw [h] at hop
    cases hop
  rw [single, satisfies, satisfiesClauses]
  · simp only [h, Bool.false_eq_true, if_false]
    rcases fieldHolds document key condition with e | _ | _ <;> rfl
  · exact other "$and" rfl
  · exact other "$or" rfl
  · exact other "$nor" rfl
  · exact other "$expr" rfl

theorem satisfies_fieldCondition {key : String} (h : isOperator key = false) (document : Value)
    (predicate : Predicate) :
    satisfies document (fieldCondition key predicate) =
      .ok (predicate.selects (reachedAt key document)) := by
  rw [fieldCondition, satisfies_single h, fieldHolds]
  simp only [hasOperators_fieldOperators, if_true]
  exact operatorsHold_fieldOperators _ predicate

/-! ## Attributes -/

theorem isOperator_key (target : Column) : isOperator target.key = false := by
  cases target <;> rfl

/-- The key of an attribute reaches the attribute. -/
theorem reachedAt_attribute (r : Record) (target : Column) :
    reachedAt target.key r.toValue = [some (r.attribute target)] := by
  cases target <;> rfl

theorem satisfies_column (r : Record) (target : Column) (predicate : Predicate) :
    satisfies r.toValue (column target predicate) =
      .ok (predicate.selects [some (r.attribute target)]) := by
  rw [column, satisfies_fieldCondition (isOperator_key target), reachedAt_attribute]

end Document

end RecordStore
